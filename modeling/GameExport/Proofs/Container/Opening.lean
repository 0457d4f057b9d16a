import GameExport.Container.Opened
import GameExport.Proofs.Container.Parsing

/-! # Opening a container never goes wrong

The places and sizes of an opened container are words, yet no sum of them is too large and no place
is out of range, whatever the bytes are: what is checked when the blobs are placed one behind the
other is what reading relies on. Main statement: bytes open exactly if they are a container, the
blobs stand one behind the other inside the bytes, and each is read in full under its name.
-/

namespace GameExport.Container

/-! ## Words -/

theorem toNat_add_words {left right : USize} (fits : left.toNat + right.toNat < USize.size) :
    (left + right).toNat = left.toNat + right.toNat := by
  rw [USize.toNat_add]
  exact Nat.mod_eq_of_lt fits

theorem toNat_toUSize {size : UInt64} (fits : size.toNat < USize.size) :
    size.toUSize.toNat = size.toNat := by
  rw [UInt64.toNat_toUSize]
  exact Nat.mod_eq_of_lt fits

theorem toNat_blobSize {size : Nat} (fits : size < USize.size) :
    (UInt64.ofNat size).toUSize.toNat = size := by
  have isSize : (UInt64.ofNat size).toNat = size :=
    UInt64.toNat_ofNat_of_lt' (Nat.lt_of_lt_of_le fits USize.size_le)
  rw [toNat_toUSize (by rwa [isSize]), isSize]

theorem toNat_add_sizes {left right : UInt64} (fits : left.toNat + right.toNat < UInt64.size) :
    (left + right).toNat = left.toNat + right.toNat := by
  rw [UInt64.toNat_add]
  exact Nat.mod_eq_of_lt fits

theorem endWithin?_eq {limit : Nat} (addressable : limit < USize.size) (start size : USize) :
    endWithin? limit start size =
      if start.toNat + size.toNat ≤ limit then some (start + size) else none := by
  rw [endWithin?]
  by_cases inside : start.toNat + size.toNat ≤ limit
  · rw [if_pos inside, if_pos ⟨Nat.lt_of_le_of_lt inside addressable, inside⟩]
  · rw [if_neg inside, if_neg fun both => inside both.2]

theorem ofNat_add_words {left right : Nat} (fits : left + right < USize.size) :
    USize.ofNat left + USize.ofNat right = USize.ofNat (left + right) := by
  apply USize.toNat_inj.mp
  have sum : (USize.ofNat left).toNat + (USize.ofNat right).toNat = left + right := by
    rw [USize.toNat_ofNat_of_lt' (by omega), USize.toNat_ofNat_of_lt' (by omega)]
  rw [toNat_add_words (by omega), sum, USize.toNat_ofNat_of_lt' fits]

theorem endOfLine_eq {limit : Nat} (addressable : limit < USize.size) {start size : Nat}
    (inside : start ≤ limit) (countable : size < UInt64.size) :
    (wordOf? (UInt64.ofNat size)).bind (endWithin? limit (USize.ofNat start)) =
      if start + size ≤ limit then some (USize.ofNat (start + size)) else none := by
  have isSize : (UInt64.ofNat size).toNat = size := UInt64.toNat_ofNat_of_lt' countable
  have isStart : (USize.ofNat start).toNat = start :=
    USize.toNat_ofNat_of_lt' (Nat.lt_of_le_of_lt inside addressable)
  by_cases fits : size < USize.size
  · have word : (UInt64.ofNat size).toUSize = USize.ofNat size := by
      apply USize.toNat_inj.mp
      rw [toNat_blobSize fits, USize.toNat_ofNat_of_lt' fits]
    rw [wordOf?, isSize, if_pos fits, Option.bind_some, endWithin?_eq addressable, word, isStart,
      USize.toNat_ofNat_of_lt' fits]
    split
    · rename_i within
      rw [ofNat_add_words (Nat.lt_of_le_of_lt within addressable)]
    · rfl
  · rw [wordOf?, isSize, if_neg fits, Option.bind_none, if_neg (by omega)]

/-! ## Places -/

def startsOf : (start : Nat) → List Entry → List Nat
  | _, [] => []
  | start, entry :: rest => start :: startsOf (start + entry.blob.length) rest

theorem getElem?_startsOf (start : Nat) (before : List Entry) (entry : Entry)
    (after : List Entry) :
    (startsOf start (before ++ entry :: after))[before.length]? =
      some (start + (before.flatMap (·.blob)).length) := by
  induction before generalizing start with
  | nil => rfl
  | cons first before induction =>
      rw [List.cons_append, startsOf, List.length_cons, List.getElem?_cons_succ, induction,
        List.flatMap_cons, List.length_append, Nat.add_assoc]

/-- Placing blobs and cutting them accept the same lines, and the places are those at which the
blobs are cut. -/
theorem placesOf_eq {limit : Nat} (addressable : limit < USize.size) {lines : List (String × Nat)}
    (countable : Countable lines) {start : Nat} {bytes : Bytes}
    (reaches : start + bytes.length = limit) :
    placesOf limit (USize.ofNat start) (lines.map lineOf) =
      match cut lines bytes with
      | .error problem => .error (.refused problem)
      | .ok entries => .ok ((startsOf start entries).map USize.ofNat) := by
  induction lines generalizing start bytes with
  | nil => rfl
  | cons line rest induction =>
      obtain ⟨name, size⟩ := line
      have isEnd := endOfLine_eq addressable (show start ≤ limit by omega)
        (countable _ List.mem_cons_self)
      rw [List.map_cons, lineOf, placesOf, isEnd, cut]
      by_cases inside : start + size ≤ limit
      · have enough : ¬ bytes.length < size := by omega
        have reaches : start + size + (bytes.drop size).length = limit := by
          rw [List.length_drop]
          omega
        have others := induction
          (fun other member => countable other (List.mem_cons_of_mem _ member)) reaches
        rw [if_pos inside, if_neg enough]
        simp only [others]
        cases cut rest (bytes.drop size) with
        | error problem => rfl
        | ok entries =>
            have length : (bytes.take size).length = size := by
              rw [List.length_take]
              omega
            simp only [Bind.bind, Except.bind, startsOf, List.map_cons, length]
      · rw [if_neg inside, if_pos (by omega)]

/-! ## Parts of the bytes -/

theorem itemAt_eq {α : Type} {items : List α} {place : Nat} {item : α}
    (present : items[place]? = some item) : itemAt items place = .ok item := by
  rw [itemAt, present]

theorem mapM_itemAt (bytes : Bytes) (width : Nat) {place : Nat}
    (inside : place + width ≤ bytes.length) :
    (List.range' place width).mapM (itemAt bytes) = .ok ((bytes.drop place).take width) := by
  induction width generalizing place with
  | zero => rfl
  | succ width induction =>
      have present : place < bytes.length := by omega
      rw [List.range'_succ, List.mapM_cons, itemAt_eq (List.getElem?_eq_getElem present),
        induction (by omega), List.drop_eq_getElem_cons present, List.take_succ_cons]
      rfl

theorem numberAt_eq {bytes : Bytes} {place : Nat} (inside : place + 4 ≤ bytes.length) :
    numberAt bytes place =
      .ok (Bytes.ofLittleEndian ((bytes.drop place).take 4)) := by
  rw [numberAt, mapM_itemAt bytes 4 inside]
  rfl

theorem part_eq {bytes : Bytes} {start stop : Nat} (ordered : start ≤ stop)
    (inside : stop ≤ bytes.length) :
    part bytes start stop = .ok ((bytes.drop start).take (stop - start)) := by
  rw [part, part?, if_pos ⟨ordered, inside⟩]

/-! ## Opening -/

def blobsStart (bytes : Bytes) : Nat :=
  headerLength + Bytes.ofLittleEndian ((bytes.drop 8).take 4)

theorem startsWith_magic_iff (bytes : Bytes) :
    bytes.startsWith magic = true ↔ bytes.take 4 = magic := by
  rw [Bytes.startsWith, length_magic]
  exact beq_iff_eq

theorem part_mark {bytes : Bytes} (long : ¬ bytes.length < headerLength) :
    part bytes 0 4 = .ok (bytes.take 4) := by
  have enough : 12 ≤ bytes.length := Nat.le_of_not_lt long
  exact part_eq (by decide) (by omega)

theorem number_of_long {bytes : Bytes} (long : ¬ bytes.length < headerLength) (place : Nat)
    (inside : place ≤ 8) :
    numberAt bytes place =
      .ok (Bytes.ofLittleEndian ((bytes.drop place).take 4)) := by
  have enough : 12 ≤ bytes.length := Nat.le_of_not_lt long
  exact numberAt_eq (by omega)

theorem endOfManifest_eq {bytes : Bytes} (addressable : bytes.length < USize.size) {length : Nat}
    (fits : length < UInt32.size) :
    endWithin? bytes.length (USize.ofNat headerLength) (USize.ofNat length) =
      if headerLength + length ≤ bytes.length then some (USize.ofNat (headerLength + length))
      else none := by
  have most : UInt32.size ≤ USize.size := USize.le_size
  have isHeader : (USize.ofNat headerLength).toNat = headerLength :=
    USize.toNat_ofNat_of_lt' (Nat.lt_of_lt_of_le (by decide) most)
  have isLength : (USize.ofNat length).toNat = length :=
    USize.toNat_ofNat_of_lt' (Nat.lt_of_lt_of_le fits most)
  rw [endWithin?_eq addressable, isHeader, isLength]
  split
  · rename_i inside
    rw [ofNat_add_words (Nat.lt_of_le_of_lt inside addressable)]
  · rfl

namespace Opened

theorem ofBytes_of_parts {bytes body : Bytes} (addressable : bytes.length < USize.size)
    {length : Nat} (parts : Parts bytes length body) :
    ofBytes bytes =
      if body.length < length then .error (.refused .truncatedManifest)
      else
        match readManifest? (body.take length) with
        | none => .error (.refused .malformedManifest)
        | some lines =>
            match cut lines (body.drop length) with
            | .error problem => .error (.refused problem)
            | .ok entries =>
                .ok ⟨lines.map lineOf, bytes,
                  (startsOf (headerLength + length) entries).map USize.ofNat⟩ := by
  have mark := (startsWith_magic_iff bytes).mp parts.marked
  have isVersion := number_of_long parts.enough 4 (by decide)
  have isLength := number_of_long parts.enough 8 (by decide)
  have fits := parts.eq_header.1
  have total : headerLength + body.length = bytes.length := by
    have enough := parts.enough
    rw [← parts.follows, List.length_drop]
    omega
  rw [parts.versioned] at isVersion
  rw [parts.counted] at isLength
  rw [ofBytes, if_neg parts.enough, part_mark parts.enough]
  simp only [mark, isVersion, isLength, endOfManifest_eq addressable fits, Bind.bind,
    Except.bind, ne_eq, not_true_eq_false, if_false]
  -- From here on both look at the same bytes: what opening finds by places, parsing cuts off.
  by_cases within : headerLength + length ≤ bytes.length
  · have stop : (USize.ofNat (headerLength + length)).toNat = headerLength + length :=
      USize.toNat_ofNat_of_lt' (Nat.lt_of_le_of_lt within addressable)
    have manifest : part bytes headerLength (headerLength + length) = .ok (body.take length) := by
      rw [part_eq (Nat.le_add_right _ _) within, parts.follows, Nat.add_sub_cancel_left]
    have inside : ¬ body.length < length := by omega
    rw [if_pos within, if_neg inside]
    simp only [stop, manifest]
    cases read : readManifest? (body.take length) with
    | none => rfl
    | some lines =>
        have countable := (readManifest?_eq_some_iff.mp read).countable
        have reaches : headerLength + length + (body.drop length).length = bytes.length := by
          rw [List.length_drop]
          omega
        simp only [placesOf_eq addressable countable reaches]
        cases cut lines (body.drop length) <;> rfl
  · rw [if_neg within, if_pos (by omega)]

/-- Opening refuses what parsing refuses, for the same reason, and otherwise gives the places of
the blobs. -/
theorem ofBytes_eq {bytes : Bytes} (addressable : bytes.length < USize.size) :
    ofBytes bytes =
      match parse bytes with
      | .error problem => .error (.refused problem)
      | .ok container =>
          .ok ⟨container.sizes.map lineOf, bytes,
            (startsOf (blobsStart bytes) container.entries).map USize.ofNat⟩ := by
  rcases parse_eq_error_or_parts bytes with ⟨refused, wrong⟩ |
    ⟨found, refused, long, marked, isFound, different⟩ | parts
  · rw [refused, ofBytes]
    by_cases short : bytes.length < headerLength
    · rw [if_pos short]
    · have unmarked : bytes.take 4 ≠ magic := by
        intro marked
        rw [(startsWith_magic_iff bytes).mpr marked] at wrong
        exact wrong.elim short Bool.noConfusion
      rw [if_neg short, part_mark short]
      exact if_pos unmarked
  · have mark := (startsWith_magic_iff bytes).mp marked
    have isVersion := number_of_long long 4 (by decide)
    rw [refused, ofBytes, if_neg long, part_mark long]
    simp only [mark, Bind.bind, Except.bind, ne_eq, not_true_eq_false, if_false]
    rw [isVersion]
    simp [isFound, different]
  · rw [ofBytes_of_parts addressable parts, parse_of_parts parts, blobsStart]
    split
    · rfl
    · cases readManifest? _ with
      | none => rfl
      | some lines =>
          have sizes {entries : List Entry} {bytes : Bytes}
              (blobs : cut lines bytes = .ok entries) : Container.sizes ⟨entries⟩ = lines :=
            (cut_eq_ok_iff.mp blobs).1
          cases blobs : cut lines ((bytes.drop headerLength).drop
            (Bytes.ofLittleEndian ((bytes.drop 8).take 4))) with
          | error problem => simp only [blobs, Except.map]
          | ok entries => simp only [blobs, Except.map, sizes blobs]

/-! ## Reading -/

theorem exists_blobs {bytes : Bytes} {container : Container}
    (parsed : parse bytes = .ok container) :
    ∃ front rest, bytes = front ++ (container.entries.flatMap (·.blob) ++ rest) ∧
      front.length = blobsStart bytes := by
  obtain ⟨length, body, parts, within, _, rest, split⟩ := parse_eq_ok_iff_parts.mp parsed
  refine ⟨header length ++ body.take length, rest, ?_, ?_⟩
  · rw [split, List.append_assoc, List.take_append_drop]
    exact parts.eq_header.2
  · rw [List.length_append, List.length_take_of_le within, blobsStart, parts.counted]
    rfl

theorem foldlM_addSizes {lines : List (String × Nat)} {start : UInt64}
    (fits : start.toNat + totalOf lines < UInt64.size) :
    ∃ total, (lines.map lineOf).foldlM (fun total line => addSizes total line.2) start =
      .ok total ∧ total.toNat = start.toNat + totalOf lines := by
  induction lines generalizing start with
  | nil => exact ⟨start, rfl, rfl⟩
  | cons line rest induction =>
      rw [totalOf_cons] at fits
      have isSize : (UInt64.ofNat line.2).toNat = line.2 := UInt64.toNat_ofNat_of_lt' (by omega)
      have small : start.toNat + (UInt64.ofNat line.2).toNat < UInt64.size := by omega
      have sum := toNat_add_sizes small
      have others : (start + UInt64.ofNat line.2).toNat + totalOf rest < UInt64.size := by omega
      obtain ⟨total, adds, isTotal⟩ := induction others
      refine ⟨total, ?_, ?_⟩
      · rw [List.map_cons, List.foldlM_cons, lineOf, addSizes, if_pos small]
        exact adds
      · rw [isTotal, totalOf_cons, sum, isSize, Nat.add_assoc]

/-- What an opened container holds: the bytes, and for each blob its line, and the place inside of
the bytes at which the blob stands, right behind the one before it. -/
structure Holds (opened : Opened) (bytes : Bytes) (container : Container) : Prop where
  data : opened.data = bytes
  lines : opened.lines.map (fun line => (line.1, line.2.toNat)) = container.sizes
  places : ∀ (before : List Entry) (entry : Entry) (after : List Entry),
    container.entries = before ++ entry :: after →
    ∃ place : USize, opened.places[before.length]? = some place ∧
      place.toNat = blobsStart bytes + (before.flatMap (·.blob)).length ∧
      place.toNat + entry.blob.length ≤ bytes.length ∧
      (bytes.drop place.toNat).take entry.blob.length = entry.blob
  reads : ∀ name, opened.read name = .ok (container.read? name)
  total : ∃ total, opened.total = .ok total ∧ total.toNat = container.totalSize

section

variable {opened : Opened} {container : Container}

theorem read_of_first (addressable : opened.data.length < USize.size)
    (lines : opened.lines = container.sizes.map lineOf) {before after : List Entry} {entry : Entry}
    (split : container.entries = before ++ entry :: after)
    (first : ∀ other ∈ before, (!other.name == entry.name) = true) {place : USize}
    (placed : opened.places[before.length]? = some place)
    (inside : place.toNat + entry.blob.length ≤ opened.data.length)
    (holds : (opened.data.drop place.toNat).take entry.blob.length = entry.blob) :
    opened.read entry.name = .ok (some entry.blob) := by
  have line : opened.lines[before.length]? = some (lineOf (entry.name, entry.blob.length)) := by
    simp [lines, sizes, split]
  have found : opened.lines.findIdx? (fun line => line.1 == entry.name) = some before.length := by
    have missed : before.findIdx? (fun other => other.name == entry.name) = none :=
      List.findIdx?_eq_none_iff.mpr fun other member => by simpa using first other member
    rw [lines, sizes, split, List.map_map, List.findIdx?_map, List.findIdx?_append]
    change (before.findIdx? fun other => other.name == entry.name).or _ = _
    rw [missed]
    simp [lineOf, List.findIdx?_cons]
  have small : entry.blob.length < USize.size := by omega
  have size := toNat_blobSize small
  have sum : place.toNat + (UInt64.ofNat entry.blob.length).toUSize.toNat < USize.size := by omega
  have stop := toNat_add_words sum
  rw [read, found]
  simp only [itemAt_eq placed, itemAt_eq line, lineOf, addWords, if_pos sum, Bind.bind,
    Except.bind]
  rw [part?, stop, size, if_pos ⟨by omega, inside⟩, Nat.add_sub_cancel_left, holds]

theorem read_of_none (lines : opened.lines = container.sizes.map lineOf) {name : String}
    (absent : ∀ entry ∈ container.entries, ¬ (entry.name == name) = true) :
    opened.read name = .ok none := by
  have found : opened.lines.findIdx? (fun line => line.1 == name) = none := by
    rw [lines, sizes, List.map_map, List.findIdx?_map, List.findIdx?_eq_none_iff]
    intro entry member
    exact Bool.eq_false_iff.mpr (absent entry member)
  rw [read, found]

end

theorem exists_place {bytes : Bytes} {container : Container}
    (addressable : bytes.length < USize.size) (parsed : parse bytes = .ok container)
    {before after : List Entry} {entry : Entry}
    (among : container.entries = before ++ entry :: after) :
    ∃ place : USize,
      ((startsOf (blobsStart bytes) container.entries).map USize.ofNat)[before.length]? =
        some place ∧
      place.toNat = blobsStart bytes + (before.flatMap (·.blob)).length ∧
      place.toNat + entry.blob.length ≤ bytes.length ∧
      (bytes.drop place.toNat).take entry.blob.length = entry.blob := by
  obtain ⟨front, rest, split, isStart⟩ := exists_blobs parsed
  have here : bytes = (front ++ before.flatMap (·.blob)) ++
      (entry.blob ++ (after.flatMap (·.blob) ++ rest)) := by
    rw [split, among]
    simp
  have isPlace : (front ++ before.flatMap (·.blob)).length =
      blobsStart bytes + (before.flatMap (·.blob)).length := by
    rw [List.length_append, isStart]
  have inside : blobsStart bytes + (before.flatMap (·.blob)).length + entry.blob.length ≤
      bytes.length := by
    rw [← isPlace]
    conv => rhs; rw [here]
    simp
    omega
  have word : (USize.ofNat (blobsStart bytes + (before.flatMap (·.blob)).length)).toNat =
      blobsStart bytes + (before.flatMap (·.blob)).length :=
    USize.toNat_ofNat_of_lt' (by omega)
  refine ⟨USize.ofNat (blobsStart bytes + (before.flatMap (·.blob)).length), ?_, word, ?_, ?_⟩
  · rw [among, List.getElem?_map, getElem?_startsOf]
    rfl
  · rw [word]
    exact inside
  · rw [word, ← isPlace]
    conv => lhs; rw [here]
    rw [List.drop_left, List.take_left]

theorem totalOf_sizes_le {bytes : Bytes} {container : Container}
    (parsed : parse bytes = .ok container) : totalOf container.sizes ≤ bytes.length := by
  obtain ⟨front, rest, split, _⟩ := exists_blobs parsed
  have same : totalOf container.sizes = (container.entries.flatMap (·.blob)).length :=
    totalOf_sizes container.entries
  rw [same, split]
  simp
  omega

theorem exists_holds {bytes : Bytes} {container : Container}
    (addressable : bytes.length < USize.size) (parsed : parse bytes = .ok container) :
    ∃ opened, ofBytes bytes = .ok opened ∧ opened.Holds bytes container := by
  have opens := ofBytes_eq addressable
  rw [parsed] at opens
  have countable : Countable container.sizes := by
    obtain ⟨_, _, _, lists, _⟩ := parse_eq_ok_iff.mp parsed
    exact lists.countable
  refine ⟨_, opens, rfl, ?_, ?_, ?_, ?_⟩
  · rw [List.map_map]
    refine (List.map_congr_left fun line member => ?_).trans (List.map_id _)
    exact Prod.ext rfl (UInt64.toNat_ofNat_of_lt' (countable line member))
  · exact fun before entry after among => exists_place addressable parsed among
  · intro name
    cases found : container.entries.find? fun entry => entry.name == name with
    | none =>
        rw [Container.read?, found]
        exact read_of_none rfl (List.find?_eq_none.mp found)
    | some entry =>
        obtain ⟨same, before, after, among, first⟩ := List.find?_eq_some_iff_append.mp found
        obtain rfl := beq_iff_eq.mp same
        obtain ⟨place, isPlace, _, inside, holds⟩ := exists_place addressable parsed among
        rw [Container.read?, found]
        exact read_of_first addressable rfl among first isPlace inside holds
  · have fits := totalOf_sizes_le parsed
    have small : (0 : UInt64).toNat + totalOf container.sizes < UInt64.size := by
      have most : USize.size ≤ UInt64.size := USize.size_le
      have zero : (0 : UInt64).toNat = 0 := rfl
      omega
    obtain ⟨total, adds, isTotal⟩ := foldlM_addSizes small
    exact ⟨total, adds, isTotal.trans (Nat.zero_add _)⟩

end Opened

/-- Bytes are accepted exactly if they are a container. The blobs then stand one behind the other
right after the manifest, and a name is read as its first blob in full, or as nothing. Opening the
bytes and reading from them never leaves the bytes and never adds up more than a word holds; what is
refused is refused for a reason of its own. Bytes in memory are counted by a word. -/
theorem opens_exactly (bytes : Bytes) :
    ((∃ container, parse bytes = .ok container) ↔ IsContainer bytes) ∧
    (∀ container, parse bytes = .ok container →
      IsLaidOut bytes container ∧
      (∀ name, name ∉ container.entries.map (·.name) → container.read? name = none) ∧
      ∀ before entry after, container.entries = before ++ entry :: after →
        entry.name ∉ before.map (·.name) → container.read? entry.name = some entry.blob) ∧
    (bytes.length < USize.size →
      (∀ problem, parse bytes = .error problem →
        Opened.ofBytes bytes = .error (.refused problem)) ∧
      ∀ container, parse bytes = .ok container →
        ∃ opened, Opened.ofBytes bytes = .ok opened ∧ opened.Holds bytes container) := by
  refine ⟨exists_parse_eq_ok_iff, ?_, ?_⟩
  · intro container parsed
    exact ⟨parse_eq_ok_iff.mp parsed, fun name => read?_of_notMem,
      fun before entry after => read?_of_first⟩
  · intro addressable
    constructor
    · intro problem refused
      rw [Opened.ofBytes_eq addressable, refused]
    · intro container parsed
      exact Opened.exists_holds addressable parsed

def twins : Container := ⟨[⟨"hero", [1]⟩, ⟨"hero", [2, 3]⟩]⟩

/-- The container of the two blobs, with a byte behind it, is opened. -/
theorem opens_exactly_twins :
    IsContainer (twins.encode ++ [9]) ∧ twins.read? "hero" = some [1] ∧
    ∃ opened, Opened.ofBytes (twins.encode ++ [9]) = .ok opened ∧
      opened.read "hero" = .ok (some [1]) ∧ opened.read "villain" = .ok none := by
  have countable : ∀ size ∈ twins.sizes, size.2 < UInt64.size := by
    decide +kernel
  have fits : (manifestBytes twins.sizes).length < UInt32.size := by
    decide +kernel
  have short : (twins.encode ++ [9]).length < UInt32.size := by
    decide +kernel
  have addressable : (twins.encode ++ [9]).length < USize.size :=
    Nat.lt_of_lt_of_le short USize.le_size
  have parsed := parse_eq_ok_iff.mpr (isLaidOut_encode_append countable fits [9])
  obtain ⟨accepts, reads, opens⟩ := opens_exactly (twins.encode ++ [9])
  have first : twins.read? "hero" = some [1] :=
    (reads twins parsed).2.2 [] ⟨"hero", [1]⟩ [⟨"hero", [2, 3]⟩] rfl List.not_mem_nil
  have none := (reads twins parsed).2.1 "villain" (by decide)
  obtain ⟨opened, opening, holds⟩ := (opens addressable).2 twins parsed
  refine ⟨accepts.mp ⟨twins, parsed⟩, first, opened, opening, ?_, ?_⟩
  · rw [holds.reads, first]
  · rw [holds.reads, none]

end GameExport.Container
