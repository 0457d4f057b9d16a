import GameExport.Proofs.Container.RoundTrip
import Mathlib.Data.List.Forall2

/-! # Which bytes are a container

Main statements: the lines of a manifest are read exactly as they are written down in it, and bytes
are taken for a container exactly if they have the mark, the version and a manifest, and the blobs
that the manifest lists fit into what follows it. The blobs then stand one behind the other.
-/

namespace GameExport

open Json

theorem Bytes.littleEndian_ofLittleEndian (bytes : Bytes) :
    littleEndian bytes.length (ofLittleEndian bytes) = bytes := by
  induction bytes with
  | nil => rfl
  | cons byte rest induction =>
      have bound := byte.toNat_lt
      have last : UInt8.ofNat (byte.toNat + 256 * ofLittleEndian rest) = byte := by
        apply UInt8.toNat_inj.mp
        rw [UInt8.toNat_ofNat']
        omega
      have others : (byte.toNat + 256 * ofLittleEndian rest) / 256 = ofLittleEndian rest := by
        omega
      rw [ofLittleEndian, List.length_cons, littleEndian, last, others, induction]

theorem Bytes.ofLittleEndian_lt (bytes : Bytes) :
    ofLittleEndian bytes < Nat.pow 256 bytes.length := by
  induction bytes with
  | nil => decide
  | cons byte rest induction =>
      have bound := byte.toNat_lt
      rw [Nat.pow_eq] at induction
      rw [ofLittleEndian, List.length_cons, Nat.pow_eq, Nat.pow_succ]
      omega

namespace Container

/-! ## Manifests -/

/-- What a line of a manifest says: an object with one name and one size, whatever else it has, or
an array of the two. -/
inductive IsLine : Source → String × Nat → Prop
  | fields {fields : List (List Symbol × Source)} {named : List (String × Source)}
      {symbols : List Symbol} {literal : Literal} {name : String} {size : UInt64}
      (readable : namedFields? fields = some named)
      (oneName : valuesOf "name" named = [.string symbols])
      (oneSize : valuesOf "size" named = [.number literal])
      (isName : Symbol.text? symbols = some name)
      (isSize : literal.value? = some (.natural size)) :
      IsLine (.object fields) (name, size.toNat)
  | items {symbols : List Symbol} {literal : Literal} {name : String} {size : UInt64}
      (isName : Symbol.text? symbols = some name)
      (isSize : literal.value? = some (.natural size)) :
      IsLine (.array [.string symbols, .number literal]) (name, size.toNat)

theorem natural_eq_some_iff {room : Nat} {source : Source} {value : Nat} :
    Decoder.natural room source = some value ↔
      ∃ literal size, source = .number literal ∧ literal.value? = some (.natural size) ∧
        value = size.toNat := by
  constructor
  · intro read
    rw [Decoder.natural.eq_def] at read
    split at read
    · rename_i literal
      split at read
      · rename_i size isSize
        exact ⟨literal, size, rfl, isSize, (Option.some.inj read).symm⟩
      · cases read
    · cases read
  · rintro ⟨literal, size, rfl, isSize, rfl⟩
    simp [Decoder.natural, isSize]

theorem text_eq_some_iff {room : Nat} {source : Source} {value : String} :
    Decoder.text room source = some value ↔
      ∃ symbols, source = .string symbols ∧ Symbol.text? symbols = some value := by
  constructor
  · intro read
    rw [Decoder.text.eq_def] at read
    split at read
    · rename_i symbols
      exact ⟨symbols, rfl, read⟩
    · cases read
  · rintro ⟨symbols, rfl, read⟩
    exact read

theorem mapM_eq_some_iff {α β : Type} {read : α → Option β} {items : List α} {values : List β} :
    items.mapM read = some values ↔
      List.Forall₂ (fun item value => read item = some value) items values := by
  induction items generalizing values with
  | nil => simp [eq_comm]
  | cons item rest induction =>
      rw [List.mapM_cons, List.forall₂_cons_left_iff]
      cases read item with
      | none => simp
      | some value =>
          cases others : rest.mapM read with
          | none => simp [← induction, others]
          | some values => simp [← induction, others, eq_comm]

theorem slots?_eq_some_iff {names : List String} {fields : List (String × Source)}
    {slots : List (Option Source)} :
    slots? names fields = some slots ↔
      List.Forall₂ (fun name slot => valuesOf name fields = slot.toList) names slots := by
  rw [slots?, mapM_eq_some_iff]
  apply iff_of_eq
  congr
  funext name slot
  apply propext
  split <;> cases slot <;> simp_all

theorem fieldRequired_eq_some_iff {α : Type} {decoder : Decoder α} {room : Nat}
    {slot : Option Source} {value : α} :
    fieldRequired decoder room slot = some value ↔
      ∃ source, slot = some source ∧ decoder room source = some value := by
  cases slot <;> simp [fieldRequired]

theorem record?_pair_eq_some_iff {first second : String} {source left right : Source} :
    source.record? [first, second] = some [some left, some right] ↔
      (∃ fields named, source = .object fields ∧ namedFields? fields = some named ∧
        valuesOf first named = [left] ∧ valuesOf second named = [right]) ∨
      source = .array [left, right] := by
  cases source with
  | object fields =>
      simp [Source.record?, Option.bind_eq_some_iff, slots?_eq_some_iff]
  | array items =>
      rcases items with _ | ⟨one, _ | ⟨two, _ | ⟨three, rest⟩⟩⟩ <;>
        simp [Source.record?, positions?]
  | null => simp [Source.record?]
  | bool value => simp [Source.record?]
  | number literal => simp [Source.record?]
  | string symbols => simp [Source.record?]

theorem decodeManifestEntry_eq_some_iff {room : Nat} {source : Source} {line : String × Nat} :
    decodeManifestEntry (room + 1) source = some line ↔ IsLine source line := by
  constructor
  · intro read
    rw [decodeManifestEntry] at read
    simp only [Option.bind_eq_bind, Option.bind_eq_some_iff] at read
    obtain ⟨slots, held, read⟩ := read
    split at read
    · rename_i name size
      simp only [Option.bind_eq_some_iff, fieldRequired_eq_some_iff, text_eq_some_iff,
        natural_eq_some_iff, Option.pure_def, Option.some.injEq] at read
      obtain ⟨text, ⟨_, rfl, symbols, rfl, isName⟩, _, ⟨_, rfl, literal, number, rfl, isSize, rfl⟩,
        rfl⟩ := read
      rcases record?_pair_eq_some_iff.mp held with
        ⟨fields, named, rfl, readable, oneName, oneSize⟩ | rfl
      · exact .fields readable oneName oneSize isName isSize
      · exact .items isName isSize
    · cases read
  · intro isLine
    cases isLine with
    | fields readable oneName oneSize isName isSize =>
        have held := record?_pair_eq_some_iff.mpr
          (.inl ⟨_, _, rfl, readable, oneName, oneSize⟩)
        simp [decodeManifestEntry, held, fieldRequired, Decoder.text, Decoder.natural, isName,
          isSize]
    | items isName isSize =>
        simp [decodeManifestEntry, Source.record?, positions?, fieldRequired, Decoder.text,
          Decoder.natural, isName, isSize]

def Lists (manifest : Bytes) (lines : List (String × Nat)) : Prop :=
  ∃ items, Source.ofBytes? manifest = some (.array items) ∧ List.Forall₂ IsLine items lines

theorem readManifest?_eq_some_iff {manifest : Bytes} {lines : List (String × Nat)} :
    readManifest? manifest = some lines ↔ Lists manifest lines := by
  have each (items : List Source) :
      Decoder.list decodeManifestEntry nestingLimit (.array items) = some lines ↔
        List.Forall₂ IsLine items lines := by
    rw [nestingLimit, Decoder.list, mapM_eq_some_iff]
    simp only [decodeManifestEntry_eq_some_iff]
  simp only [readManifest?, Decoder.runBytes?, Option.bind_eq_bind, Option.bind_eq_some_iff]
  constructor
  · rintro ⟨source, document, read⟩
    cases source with
    | array items => exact ⟨items, document, (each items).mp read⟩
    | _ => cases read
  · rintro ⟨items, document, lines⟩
    exact ⟨.array items, document, (each items).mpr lines⟩

theorem Lists.countable {manifest : Bytes} {lines : List (String × Nat)}
    (lists : Lists manifest lines) : Countable lines := by
  obtain ⟨items, -, all⟩ := lists
  intro line member
  induction all with
  | nil => cases member
  | cons isLine _ induction =>
      rcases List.mem_cons.mp member with rfl | member
      · cases isLine with
        | fields => exact UInt64.toNat_lt_size _
        | items => exact UInt64.toNat_lt_size _
      · exact induction member

/-! ## Blobs -/

def totalOf (lines : List (String × Nat)) : Nat :=
  lines.foldl (fun total line => total + line.2) 0

theorem totalOf_cons (line : String × Nat) (rest : List (String × Nat)) :
    totalOf (line :: rest) = line.2 + totalOf rest := by
  have shifted (start : Nat) : rest.foldl (fun total line => total + line.2) start =
      start + totalOf rest := by
    rw [totalOf]
    induction rest generalizing start with
    | nil => rfl
    | cons other rest induction =>
        rw [List.foldl_cons, List.foldl_cons, induction, induction (0 + other.2)]
        omega
  rw [totalOf, List.foldl_cons, shifted, Nat.zero_add]

theorem totalOf_sizes (entries : List Entry) :
    totalOf (sizes ⟨entries⟩) = (entries.flatMap (·.blob)).length := by
  induction entries with
  | nil => rfl
  | cons entry rest induction =>
      rw [sizes] at induction
      rw [sizes, List.map_cons, totalOf_cons, induction, List.flatMap_cons, List.length_append]

theorem cut_eq_ok_iff {lines : List (String × Nat)} {bytes : Bytes} {entries : List Entry} :
    cut lines bytes = .ok entries ↔
      sizes ⟨entries⟩ = lines ∧ entries.flatMap (·.blob) <+: bytes := by
  constructor
  · intro blobs
    induction lines generalizing bytes entries with
    | nil =>
        cases blobs
        exact ⟨rfl, List.nil_prefix⟩
    | cons line rest induction =>
        obtain ⟨name, size⟩ := line
        rw [cut] at blobs
        split at blobs
        · cases blobs
        · rename_i enough
          cases others : cut rest (bytes.drop size) with
          | error problem =>
              rw [others] at blobs
              cases blobs
          | ok further =>
              rw [others] at blobs
              cases blobs
              obtain ⟨sameSizes, front⟩ := induction others
              rw [sizes] at sameSizes
              constructor
              · rw [sizes, List.map_cons, sameSizes, List.length_take,
                  Nat.min_eq_left (Nat.le_of_not_lt enough)]
              · rw [List.flatMap_cons]
                conv => rhs; rw [← List.take_append_drop size bytes]
                exact (List.prefix_append_right_inj _).mpr front
  · rintro ⟨rfl, rest, rfl⟩
    induction entries with
    | nil => rfl
    | cons entry entries induction =>
        have enough : ¬ (entry.blob ++ (entries.flatMap (·.blob) ++ rest)).length <
            entry.blob.length := by
          rw [List.length_append]
          omega
        rw [sizes] at induction
        rw [sizes, List.map_cons, List.flatMap_cons, List.append_assoc, cut, if_neg enough,
          List.drop_left, List.take_left, induction]
        rfl

theorem exists_cut_eq_ok_iff {lines : List (String × Nat)} {bytes : Bytes} :
    (∃ entries, cut lines bytes = .ok entries) ↔ totalOf lines ≤ bytes.length := by
  constructor
  · rintro ⟨entries, blobs⟩
    obtain ⟨rfl, front⟩ := cut_eq_ok_iff.mp blobs
    rw [totalOf_sizes]
    exact front.length_le
  · intro enough
    induction lines generalizing bytes with
    | nil => exact ⟨[], rfl⟩
    | cons line rest induction =>
        obtain ⟨name, size⟩ := line
        rw [totalOf_cons] at enough
        have short : totalOf rest ≤ (bytes.drop size).length := by
          rw [List.length_drop]
          omega
        obtain ⟨entries, others⟩ := induction short
        refine ⟨⟨name, bytes.take size⟩ :: entries, ?_⟩
        rw [cut, if_neg (by omega), others]
        rfl

/-! ## Containers -/

theorem Parts.eq_header {bytes body : Bytes} {length : Nat} (parts : Parts bytes length body) :
    length < UInt32.size ∧ bytes = header length ++ body := by
  have enough : 12 ≤ bytes.length := Nat.le_of_not_lt parts.enough
  have mark : bytes.take 4 = magic := by
    have marked := parts.marked
    rw [Bytes.startsWith, length_magic] at marked
    exact beq_iff_eq.mp marked
  have word (place : Nat) (inside : place + 4 ≤ 12) :
      Bytes.littleEndian 4 (Bytes.ofLittleEndian ((bytes.drop place).take 4)) =
        (bytes.drop place).take 4 := by
    have four : ((bytes.drop place).take 4).length = 4 := by
      rw [List.length_take, List.length_drop]
      omega
    have same := Bytes.littleEndian_ofLittleEndian ((bytes.drop place).take 4)
    rwa [four] at same
  have versionWord := word 4 (by decide)
  have lengthWord := word 8 (by decide)
  rw [parts.versioned] at versionWord
  rw [parts.counted] at lengthWord
  constructor
  · have bound := Bytes.ofLittleEndian_lt ((bytes.drop 8).take 4)
    have most : ((bytes.drop 8).take 4).length ≤ 4 := List.length_take_le _ _
    rw [parts.counted] at bound
    exact Nat.lt_of_lt_of_le bound (Nat.pow_le_pow_right (by decide) most)
  · have afterVersion := List.take_append_drop 4 (bytes.drop 4)
    have afterLength := List.take_append_drop 4 (bytes.drop 8)
    rw [List.drop_drop] at afterVersion afterLength
    rw [header, ← mark, versionWord, lengthWord, ← parts.follows, List.append_assoc,
      List.append_assoc]
    exact ((congrArg _ ((congrArg _ afterLength).trans afterVersion)).trans
      (List.take_append_drop 4 bytes)).symm

theorem parse_of_parts {bytes body : Bytes} {length : Nat} (parts : Parts bytes length body) :
    parse bytes =
      if body.length < length then .error .truncatedManifest
      else
        match readManifest? (body.take length) with
        | none => .error .malformedManifest
        | some sizes => (cut sizes (body.drop length)).map Container.mk := by
  have front : ¬ (bytes.length < headerLength ∨ bytes.startsWith magic = false) := by
    rw [parts.marked]
    exact fun wrong => wrong.elim parts.enough Bool.noConfusion
  rw [parse, if_neg front]
  simp only [parts.versioned, parts.counted, parts.follows, ne_eq, not_true_eq_false, if_false]
  rfl

/-- Bytes without the parts of a container are refused for their mark or their version. -/
theorem parse_eq_error_or_parts (bytes : Bytes) :
    (parse bytes = .error .badMagic ∧
      (bytes.length < headerLength ∨ bytes.startsWith magic = false)) ∨
    (∃ found, parse bytes = .error (.unsupportedVersion found) ∧ ¬ bytes.length < headerLength ∧
      bytes.startsWith magic = true ∧ Bytes.ofLittleEndian ((bytes.drop 4).take 4) = found ∧
      found ≠ version) ∨
    Parts bytes (Bytes.ofLittleEndian ((bytes.drop 8).take 4)) (bytes.drop headerLength) := by
  by_cases front : bytes.length < headerLength ∨ bytes.startsWith magic = false
  · exact .inl ⟨by rw [parse, if_pos front], front⟩
  · have marked : bytes.startsWith magic = true := by
      cases starts : bytes.startsWith magic with
      | true => rfl
      | false => exact absurd (.inr starts) front
    by_cases versioned : Bytes.ofLittleEndian ((bytes.drop 4).take 4) = version
    · exact .inr (.inr ⟨fun short => front (.inl short), marked, versioned, rfl, rfl⟩)
    · refine .inr (.inl ⟨_, ?_, fun short => front (.inl short), marked, rfl, versioned⟩)
      rw [parse, if_neg front]
      exact if_pos versioned

theorem parse_eq_ok_iff_parts {bytes : Bytes} {container : Container} :
    parse bytes = .ok container ↔
      ∃ length body, Parts bytes length body ∧ length ≤ body.length ∧
        Lists (body.take length) container.sizes ∧
        container.entries.flatMap (·.blob) <+: body.drop length := by
  constructor
  · intro parsed
    rcases parse_eq_error_or_parts bytes with ⟨refused, _⟩ | ⟨_, refused, _⟩ | parts
    · rw [refused] at parsed
      cases parsed
    · rw [refused] at parsed
      cases parsed
    · rw [parse_of_parts parts] at parsed
      split at parsed
      · cases parsed
      · rename_i within
        split at parsed
        · cases parsed
        · rename_i lines read
          cases blobs : cut lines ((bytes.drop headerLength).drop _) with
          | error problem =>
              rw [blobs] at parsed
              cases parsed
          | ok entries =>
              rw [blobs] at parsed
              cases parsed
              obtain ⟨rfl, front⟩ := cut_eq_ok_iff.mp blobs
              exact ⟨_, _, parts, Nat.le_of_not_lt within, readManifest?_eq_some_iff.mp read, front⟩
  · rintro ⟨length, body, parts, within, lists, front⟩
    have read := readManifest?_eq_some_iff.mpr lists
    have blobs : cut container.sizes (body.drop length) = .ok container.entries :=
      cut_eq_ok_iff.mpr ⟨rfl, front⟩
    rw [parse_of_parts parts, if_neg (Nat.not_lt.mpr within), read]
    simp only [blobs]
    rfl

/-- Whether bytes are a container: behind the mark and the version they declare the length of a
manifest, which lies inside of them, and the blobs of all its lines fit into what follows it. -/
def IsContainer (bytes : Bytes) : Prop :=
  ∃ length body lines, Parts bytes length body ∧ length ≤ body.length ∧
    Lists (body.take length) lines ∧ totalOf lines ≤ (body.drop length).length

theorem exists_parse_eq_ok_iff {bytes : Bytes} :
    (∃ container, parse bytes = .ok container) ↔ IsContainer bytes := by
  constructor
  · rintro ⟨container, parsed⟩
    obtain ⟨length, body, parts, within, lists, front⟩ := parse_eq_ok_iff_parts.mp parsed
    have enough := exists_cut_eq_ok_iff.mp ⟨_, cut_eq_ok_iff.mpr ⟨rfl, front⟩⟩
    exact ⟨length, body, container.sizes, parts, within, lists, enough⟩
  · rintro ⟨length, body, lines, parts, within, lists, enough⟩
    obtain ⟨entries, blobs⟩ := exists_cut_eq_ok_iff.mpr enough
    obtain ⟨rfl, front⟩ := cut_eq_ok_iff.mp blobs
    exact ⟨⟨entries⟩, parse_eq_ok_iff_parts.mpr ⟨length, body, parts, within, lists, front⟩⟩

/-- How bytes hold a container: behind the header a manifest that lists the names and sizes of the
blobs, then the blobs one behind the other, then what nobody reads. -/
def IsLaidOut (bytes : Bytes) (container : Container) : Prop :=
  ∃ manifest rest, manifest.length < UInt32.size ∧ Lists manifest container.sizes ∧
    bytes = header manifest.length ++ (manifest ++ (container.entries.flatMap (·.blob) ++ rest))

/-- The container that is read is the one that is laid out. -/
theorem parse_eq_ok_iff {bytes : Bytes} {container : Container} :
    parse bytes = .ok container ↔ IsLaidOut bytes container := by
  rw [parse_eq_ok_iff_parts]
  constructor
  · rintro ⟨length, body, parts, within, lists, rest, front⟩
    obtain ⟨fits, same⟩ := parts.eq_header
    have whole : (body.take length).length = length := List.length_take_of_le within
    refine ⟨body.take length, rest, by rwa [whole], lists, ?_⟩
    rw [front, List.take_append_drop, whole]
    exact same
  · rintro ⟨manifest, rest, fits, lists, rfl⟩
    refine ⟨_, _, parts_header fits _, ?_, ?_, ?_⟩
    · rw [List.length_append]
      exact Nat.le_add_right _ _
    · rwa [List.take_left]
    · rw [List.drop_left]
      exact List.prefix_append _ _

theorem isLaidOut_encode_append {container : Container} (countable : Countable container.sizes)
    (fits : (manifestBytes container.sizes).length < UInt32.size) (rest : Bytes) :
    IsLaidOut (container.encode ++ rest) container := by
  have lists := readManifest?_eq_some_iff.mp (readManifest?_manifestBytes countable)
  refine ⟨manifestBytes container.sizes, rest, fits, lists, ?_⟩
  rw [encode, List.append_assoc, List.append_assoc]

/-! ## Names -/

theorem read?_of_notMem {container : Container} {name : String}
    (absent : name ∉ container.entries.map (·.name)) : container.read? name = none := by
  rw [read?, Option.map_eq_none_iff, List.find?_eq_none]
  intro entry member same
  exact absent (List.mem_map.mpr ⟨entry, member, beq_iff_eq.mp same⟩)

theorem read?_of_first {container : Container} {before after : List Entry} {entry : Entry}
    (split : container.entries = before ++ entry :: after)
    (first : entry.name ∉ before.map (·.name)) :
    container.read? entry.name = some entry.blob := by
  have found : container.entries.find? (fun other => other.name == entry.name) = some entry := by
    refine List.find?_eq_some_iff_append.mpr ⟨beq_self_eq_true _, before, after, split, ?_⟩
    intro other member
    have different : ¬ (other.name == entry.name) = true := fun same =>
      first (List.mem_map.mpr ⟨other, member, beq_iff_eq.mp same⟩)
    rw [Bool.eq_false_iff.mpr different]
    rfl
  rw [read?, found]
  rfl

end Container

end GameExport
