import MeteredContracts.Identifier.Decode

namespace MeteredContracts

namespace Document

def isByte : Document → Bool
  | .int n => 0 ≤ n ∧ n ≤ 255
  | _ => false

def offence : Document → DecodeError
  | .int n => .value n "u8"
  | d => .type d "u8"

def firstOffence? (items : List Document) : Option DecodeError :=
  (items.find? fun d => !d.isByte).map offence

/-- A list of some size is wanted. The first element that is no byte is reported, among as many as
are wanted, and if there is none, how many elements there are. -/
def Misfit (size : Nat) (expected : String) (items : List Document) (e : DecodeError) : Prop :=
  firstOffence? (items.take size) = some e ∨
    firstOffence? (items.take size) = none ∧ items.length ≠ size ∧
      e = .length items.length
        (if items.length < size then expected else "fewer elements in array")

structure Decodes {α : Type} (decode : Document → Except DecodeError α) (bytes : α → Bytes)
    (fits : Nat → Prop) (reported : List Document → DecodeError → Prop) : Prop where
  reads : ∀ d a, decode d = .ok a ↔ d = (bytes a).toDocument
  accepts : ∀ d, (∃ a, decode d = .ok a) ↔
    ∃ items, d = .list items ∧ fits items.length ∧ ∀ x ∈ items, x.isByte
  reports : ∀ items e, decode (.list items) = .error e ↔ reported items e

end Document

open Document (isByte offence firstOffence? Misfit Decodes)

section Elements

variable {items : List Document} {d : Document} {b : UInt8} {bs : Bytes} {e : DecodeError}

theorem Document.isByte_iff : d.isByte ↔ ∃ b : UInt8, d = .int b.toNat := by
  constructor
  · intro h
    cases d with
    | int n =>
      simp only [isByte, decide_eq_true_eq] at h
      refine ⟨.ofNat n.toNat, ?_⟩
      rw [UInt8.toNat_ofNat_of_lt' (show n.toNat < 256 by omega), Int.toNat_of_nonneg h.1]
    | null | bool | float | unreadable | text | list | table => cases h
  · rintro ⟨b, rfl⟩
    have hlt := b.toNat_lt
    simp only [isByte, decide_eq_true_eq]
    omega

theorem UInt8.ofDocument_of_byte (b : UInt8) : UInt8.ofDocument (.int b.toNat) = .ok b := by
  have hlt := b.toNat_lt
  rw [UInt8.ofDocument, if_pos (by omega), Int.toNat_natCast, UInt8.ofNat_toNat]

theorem UInt8.ofDocument_of_not_isByte (h : ¬d.isByte) :
    UInt8.ofDocument d = .error d.offence := by
  cases d with
  | int n =>
    simp only [isByte, decide_eq_true_eq] at h
    rw [UInt8.ofDocument, if_neg (by omega)]
    rfl
  | null | bool | float | unreadable | text | list | table => rfl

theorem mapM_ofDocument_bytes (bs : Bytes) :
    (bs.map fun b => Document.int b.toNat).mapM UInt8.ofDocument = .ok bs := by
  induction bs with
  | nil => rfl
  | cons b bs ih =>
    rw [List.map_cons, List.mapM_cons, UInt8.ofDocument_of_byte, ih]
    rfl

theorem mapM_ofDocument_of_offence (h : firstOffence? items = some e) :
    items.mapM UInt8.ofDocument = .error e := by
  induction items with
  | nil => cases h
  | cons d items ih =>
    rw [List.mapM_cons]
    by_cases hd : d.isByte
    · obtain ⟨b, rfl⟩ := Document.isByte_iff.mp hd
      rw [firstOffence?, List.find?_cons_of_neg (by simp [hd])] at h
      rw [UInt8.ofDocument_of_byte, ih h]
      rfl
    · rw [firstOffence?, List.find?_cons_of_pos (by simp [hd])] at h
      cases h
      rw [UInt8.ofDocument_of_not_isByte hd]
      rfl

theorem firstOffence?_eq_none_iff : firstOffence? items = none ↔ ∀ x ∈ items, x.isByte := by
  rw [firstOffence?, Option.map_eq_none_iff, List.find?_eq_none]
  simp only [Bool.not_eq_true', Bool.not_eq_false]

theorem exists_bytes_iff :
    (∃ bs : Bytes, items = bs.map fun b => .int b.toNat) ↔ ∀ x ∈ items, x.isByte := by
  constructor
  · rintro ⟨bs, rfl⟩
    exact List.forall_mem_map.mpr fun b _ => Document.isByte_iff.mpr ⟨b, rfl⟩
  · intro h
    induction items with
    | nil => exact ⟨[], rfl⟩
    | cons d items ih =>
      rw [List.forall_mem_cons] at h
      obtain ⟨b, rfl⟩ := Document.isByte_iff.mp h.1
      obtain ⟨bs, rfl⟩ := ih h.2
      exact ⟨b :: bs, rfl⟩

theorem mapM_ofDocument_eq_ok_iff :
    items.mapM UInt8.ofDocument = .ok bs ↔ items = bs.map fun b => .int b.toNat := by
  refine ⟨fun h => ?_, fun h => h ▸ mapM_ofDocument_bytes bs⟩
  cases hoff : firstOffence? items with
  | some e => cases (mapM_ofDocument_of_offence hoff).symm.trans h
  | none =>
    obtain ⟨bs', rfl⟩ := exists_bytes_iff.mpr (firstOffence?_eq_none_iff.mp hoff)
    cases (mapM_ofDocument_bytes bs').symm.trans h
    rfl

theorem mapM_ofDocument_eq_error_iff :
    items.mapM UInt8.ofDocument = .error e ↔ firstOffence? items = some e := by
  refine ⟨fun h => ?_, mapM_ofDocument_of_offence⟩
  cases hoff : firstOffence? items with
  | some e' =>
    cases (mapM_ofDocument_of_offence hoff).symm.trans h
    rfl
  | none =>
    obtain ⟨bs', rfl⟩ := exists_bytes_iff.mpr (firstOffence?_eq_none_iff.mp hoff)
    cases (mapM_ofDocument_bytes bs').symm.trans h

end Elements

section Array

variable {size : Nat} {expected : String} {items : List Document} {e : DecodeError}

theorem ofElements_of_offence (h : firstOffence? (items.take size) = some e) :
    Bytes.ofElements size expected items = .error e := by
  rw [Bytes.ofElements, mapM_ofDocument_of_offence h]
  rfl

theorem ofElements_of_bytes {bs : Bytes}
    (h : items.take size = bs.map fun b => .int b.toNat) :
    Bytes.ofElements size expected items =
      if hsize : bs.length = size then
        if size < items.length then .error (.length items.length "fewer elements in array")
        else .ok ⟨bs, hsize⟩
      else .error (.length bs.length expected) := by
  rw [Bytes.ofElements, h, mapM_ofDocument_bytes]
  rfl

theorem ofElements_of_length_ne (hbytes : firstOffence? (items.take size) = none)
    (hlength : items.length ≠ size) :
    Bytes.ofElements size expected items = .error (.length items.length
      (if items.length < size then expected else "fewer elements in array")) := by
  obtain ⟨bs, hbs⟩ := exists_bytes_iff.mpr (firstOffence?_eq_none_iff.mp hbytes)
  have hmin : min size items.length = bs.length := by
    rw [← List.length_take, hbs, List.length_map]
  rw [ofElements_of_bytes hbs]
  obtain hlt | hlt := Nat.lt_or_gt_of_ne hlength
  · rw [dif_neg (by omega), if_pos hlt, ← hmin, Nat.min_eq_right (Nat.le_of_lt hlt)]
  · rw [dif_pos (by omega), if_pos hlt, if_neg (Nat.lt_asymm hlt)]

theorem ofElements_of_fits {bs : { bs : Bytes // bs.length = size }}
    (h : items = bs.1.map fun b => .int b.toNat) :
    Bytes.ofElements size expected items = .ok bs := by
  have hlength : items.length = size := by rw [h, List.length_map, bs.2]
  have htake := List.take_of_length_le (Nat.le_of_eq hlength)
  rw [ofElements_of_bytes (htake.trans h), dif_pos bs.2, if_neg (by omega)]

theorem exists_fits (hbytes : firstOffence? (items.take size) = none)
    (hlength : items.length = size) :
    ∃ bs : { bs : Bytes // bs.length = size }, items = bs.1.map fun b => .int b.toNat := by
  rw [List.take_of_length_le (Nat.le_of_eq hlength)] at hbytes
  obtain ⟨bs, rfl⟩ := exists_bytes_iff.mpr (firstOffence?_eq_none_iff.mp hbytes)
  rw [List.length_map] at hlength
  exact ⟨⟨bs, hlength⟩, rfl⟩

theorem ofElements_eq_ok_iff {bs : { bs : Bytes // bs.length = size }} :
    Bytes.ofElements size expected items = .ok bs ↔ items = bs.1.map fun b => .int b.toNat := by
  refine ⟨fun h => ?_, ofElements_of_fits⟩
  cases hoff : firstOffence? (items.take size) with
  | some e => cases (ofElements_of_offence hoff).symm.trans h
  | none =>
    by_cases hlength : items.length = size
    · obtain ⟨bs', hbs⟩ := exists_fits hoff hlength
      cases (ofElements_of_fits hbs).symm.trans h
      exact hbs
    · cases (ofElements_of_length_ne hoff hlength).symm.trans h

theorem ofElements_eq_error_iff :
    Bytes.ofElements size expected items = .error e ↔ Misfit size expected items e := by
  constructor
  · intro h
    cases hoff : firstOffence? (items.take size) with
    | some e' =>
      cases (ofElements_of_offence hoff).symm.trans h
      exact .inl hoff
    | none =>
      by_cases hlength : items.length = size
      · obtain ⟨bs', hbs⟩ := exists_fits hoff hlength
        cases (ofElements_of_fits hbs).symm.trans h
      · cases (ofElements_of_length_ne hoff hlength).symm.trans h
        exact .inr ⟨hoff, hlength, rfl⟩
  · rintro (hoff | ⟨hoff, hlength, rfl⟩)
    · exact ofElements_of_offence hoff
    · exact ofElements_of_length_ne hoff hlength

end Array

section Except

variable {ε α β : Type} {x : Except ε α} {f : α → β}

theorem map_eq_ok_iff {b : β} : x.map f = .ok b ↔ ∃ a, x = .ok a ∧ f a = b := by
  cases x with
  | error e => exact ⟨nofun, nofun⟩
  | ok a => simp only [Except.map, Except.ok.injEq, exists_eq_left']

theorem map_eq_error_iff {e : ε} : x.map f = .error e ↔ x = .error e := by
  cases x with
  | error e' => simp only [Except.map, Except.error.injEq]
  | ok a => exact ⟨nofun, nofun⟩

end Except

section Decoder

variable {α : Type} {decode : Document → Except DecodeError α} {bytes : α → Bytes}

theorem exists_of_elements {expected : String} {read : List Document → Except DecodeError α}
    {d : Document} {a : α} (h : d.elements expected >>= read = .ok a) :
    ∃ items, d = .list items := by
  cases d with
  | list items => exact ⟨items, rfl⟩
  | null | bool | int | float | unreadable | text | table => cases h

theorem decodes_of_elements {fits : Nat → Prop} {reported : List Document → DecodeError → Prop}
    (hother : ∀ d a, decode d = .ok a → ∃ items, d = .list items)
    (hreads : ∀ items a, decode (.list items) = .ok a ↔ items = (bytes a).map fun b => .int b.toNat)
    (hfits : ∀ bs : Bytes, fits bs.length ↔ ∃ a, bytes a = bs)
    (hreports : ∀ items e, decode (.list items) = .error e ↔ reported items e) :
    Decodes decode bytes fits reported where
  reads d a := by
    constructor
    · intro h
      obtain ⟨items, rfl⟩ := hother d a h
      rw [(hreads items a).mp h]
      rfl
    · rintro rfl
      exact (hreads _ a).mpr rfl
  accepts d := by
    constructor
    · rintro ⟨a, h⟩
      obtain ⟨items, rfl⟩ := hother d a h
      have hitems := (hreads items a).mp h
      refine ⟨items, rfl, ?_, exists_bytes_iff.mp ⟨_, hitems⟩⟩
      rw [hitems, List.length_map]
      exact (hfits _).mpr ⟨a, rfl⟩
    · rintro ⟨items, rfl, hlength, hbytes⟩
      obtain ⟨bs, rfl⟩ := exists_bytes_iff.mpr hbytes
      rw [List.length_map] at hlength
      obtain ⟨a, rfl⟩ := (hfits bs).mp hlength
      exact ⟨a, (hreads _ a).mpr rfl⟩
  reports := hreports

theorem decodes_array {size : Nat} {expected : String}
    (make : { bs : Bytes // bs.length = size } → α) (hmake : ∀ bs a, make bs = a ↔ bs.1 = bytes a)
    (hsize : ∀ a, (bytes a).length = size)
    (hother : ∀ d a, decode d = .ok a → ∃ items, d = .list items)
    (hlist : ∀ items, decode (.list items) = (Bytes.ofElements size expected items).map make) :
    Decodes decode bytes (· = size) (Misfit size expected) := by
  refine decodes_of_elements hother (fun items a => ?_) (fun bs => ⟨fun h => ?_, ?_⟩)
    fun items e => ?_
  · rw [hlist, map_eq_ok_iff]
    constructor
    · rintro ⟨bs, hbs, ha⟩
      rw [← (hmake bs a).mp ha]
      exact ofElements_eq_ok_iff.mp hbs
    · intro h
      exact ⟨⟨bytes a, hsize a⟩, ofElements_of_fits h, (hmake _ a).mpr rfl⟩
  · exact ⟨make ⟨bs, h⟩, ((hmake _ _).mp rfl).symm⟩
  · rintro ⟨a, rfl⟩
    exact hsize a
  · rw [hlist, map_eq_error_iff, ofElements_eq_error_iff]

end Decoder

theorem Address.decodes :
    Decodes Address.ofDocument Address.bytes (· = 33) (Misfit 33 "33 address bytes") :=
  decodes_array (fun bs => ⟨bs.1, bs.2⟩) (fun _ _ => Address.ext_iff) Address.length_eq
    (fun _ _ h => exists_of_elements h) fun _ => rfl

theorem ActionId.decodes :
    Decodes ActionId.ofDocument ActionId.bytes (· = 32) (Misfit 32 "an array of length 32") :=
  decodes_array (fun bs => ⟨bs.1, bs.2⟩) (fun _ _ => ActionId.ext_iff) ActionId.length_eq
    (fun _ _ h => exists_of_elements h) fun _ => rfl

theorem ContractId.decodes :
    Decodes ContractId.ofDocument ContractId.bytes (fun _ => True)
      fun items e => firstOffence? items = some e := by
  have hlist (items : List Document) : ContractId.ofDocument (.list items) =
      (items.mapM UInt8.ofDocument).map ContractId.mk := rfl
  refine decodes_of_elements (fun _ _ h => exists_of_elements h) (fun items a => ?_)
    (fun bs => ⟨fun _ => ⟨⟨bs⟩, rfl⟩, fun _ => trivial⟩) fun items e => ?_
  · rw [hlist, map_eq_ok_iff, ← mapM_ofDocument_eq_ok_iff]
    constructor
    · rintro ⟨bs, hbs, rfl⟩
      exact hbs
    · intro h
      exact ⟨a.bytes, h, rfl⟩
  · rw [hlist, map_eq_error_iff, mapM_ofDocument_eq_error_iff]

/-- Each identifier is read back from its document, and the documents that are read are the lists of
as many bytes as the identifier has. Of any other list, the first element among those looked at that
is no byte is reported, and else the number of its elements. -/
theorem identifiers_decode_from_their_bytes :
    ((∀ a : Address, Address.ofDocument a.toDocument = .ok a) ∧
      (∀ a : ActionId, ActionId.ofDocument a.toDocument = .ok a) ∧
      ∀ id : ContractId, ContractId.ofDocument id.toDocument = .ok id) ∧
    Decodes Address.ofDocument Address.bytes (· = 33) (Misfit 33 "33 address bytes") ∧
    Decodes ActionId.ofDocument ActionId.bytes (· = 32) (Misfit 32 "an array of length 32") ∧
    Decodes ContractId.ofDocument ContractId.bytes (fun _ => True)
      fun items e => firstOffence? items = some e :=
  ⟨⟨fun a => (Address.decodes.reads _ a).mpr rfl, fun a => (ActionId.decodes.reads _ a).mpr rfl,
    fun id => (ContractId.decodes.reads _ id).mpr rfl⟩,
    Address.decodes, ActionId.decodes, ContractId.decodes⟩

theorem offence_behind_the_end_goes_unreported :
    let items := List.replicate 33 (.int 0) ++ [.text "x"]
    firstOffence? items = some (.type (.text "x") "u8") ∧
      Address.ofDocument (.list items) = .error (.length 34 "fewer elements in array") ∧
      ¬∀ items e, (∃ x ∈ items, x.isByte = false) → Address.ofDocument (.list items) = .error e →
        firstOffence? items = some e := by
  intro items
  refine ⟨rfl, rfl, fun h => ?_⟩
  cases h items (.length 34 "fewer elements in array") ⟨.text "x", by simp [items], rfl⟩ rfl

end MeteredContracts
