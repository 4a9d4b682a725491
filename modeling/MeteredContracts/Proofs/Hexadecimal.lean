import MeteredContracts.Document.Basic
import MeteredContracts.Text.Hex

namespace MeteredContracts.Hex

open Document (isHexDigit digitValue)

inductive Spells : List Char → Bytes → Prop
  | nil : Spells [] []
  | cons {high low : Char} {b : UInt8} {cs : List Char} {bs : Bytes} (hhigh : isHexDigit high)
    (hlow : isHexDigit low) (hb : b.toNat = 16 * digitValue high + digitValue low)
    (rest : Spells cs bs) : Spells (high :: low :: cs) (b :: bs)

def latin (b : UInt8) : Char := Char.ofNat b.toNat

def IsDigit (b : UInt8) : Prop := isHexDigit (latin b) = true

structure FirstBad (text : Bytes) (byte : UInt8) (index : Nat) : Prop where
  found : text[index]? = some byte
  bad : ¬IsDigit byte
  digits : ∀ b ∈ text.take index, IsDigit b

def Fault.Tells (text : Bytes) : Fault → Prop
  | .oddLength => text.length % 2 = 1
  | .badDigit b i => text.length % 2 = 0 ∧ FirstBad text b i

section Digit

theorem value?_eq (b : UInt8) :
    value? b = if isHexDigit (latin b) then some (digitValue (latin b)) else none := by
  have h : ∀ n < 256, value? (.ofNat n) = if isHexDigit (latin (.ofNat n)) then
      some (digitValue (latin (.ofNat n))) else none := by decide +kernel
  have hb := h b.toNat b.toNat_lt
  rwa [UInt8.ofNat_toNat] at hb

theorem value?_eq_some_iff {b : UInt8} {v : Nat} :
    value? b = some v ↔ IsDigit b ∧ digitValue (latin b) = v := by
  rw [value?_eq, Option.ite_none_right_eq_some, Option.some.injEq]
  rfl

theorem value?_eq_none_iff {b : UInt8} : value? b = none ↔ ¬IsDigit b := by
  rw [value?_eq, ite_eq_right_iff]
  simp only [reduceCtorEq, imp_false, IsDigit]

theorem IsDigit.lt {b : UInt8} (h : IsDigit b) : b.toNat < 128 := by
  refine Nat.not_le.mp fun hge => value?_eq_none_iff.mp ?_ h
  unfold value?
  rw [if_neg (by omega), if_neg (by omega), if_neg (by omega)]

theorem toNat_lt_of_isHexDigit {c : Char} (h : isHexDigit c) : c.toNat < 128 := by
  have below {d : Char} (hd : d.toNat < 128) (hle : c ≤ d) : c.toNat < 128 :=
    Nat.lt_of_le_of_lt (UInt32.le_iff_toNat_le.mp hle) hd
  simp only [isHexDigit, Document.isDigit, Bool.or_eq_true, Bool.and_eq_true,
    decide_eq_true_eq] at h
  obtain (⟨-, h⟩ | ⟨-, h⟩) | ⟨-, h⟩ := h <;> exact below (by decide) h

theorem digit_digitValue {c : Char} (h : isHexDigit c) :
    digitValue c < 16 ∧ digit (digitValue c) = c.toLower := by
  have hall : ∀ n < 128, isHexDigit (Char.ofNat n) → digitValue (Char.ofNat n) < 16 ∧
      digit (digitValue (Char.ofNat n)) = (Char.ofNat n).toLower := by
    decide +kernel
  have hc := hall c.toNat (toNat_lt_of_isHexDigit h)
  rw [Char.ofNat_toNat] at hc
  exact hc h

theorem digitValue_digit {n : Nat} (h : n < 16) :
    isHexDigit (digit n) = true ∧ digitValue (digit n) = n := by
  have hall : ∀ n < 16, isHexDigit (digit n) = true ∧ digitValue (digit n) = n := by decide
  exact hall n h

end Digit

theorem spells_cons_iff {high low : Char} {cs : List Char} {bs : Bytes} :
    Spells (high :: low :: cs) bs ↔ isHexDigit high ∧ isHexDigit low ∧
      ∃ rest, Spells cs rest ∧ .ofNat (16 * digitValue high + digitValue low) :: rest = bs := by
  constructor
  · rintro (_ | ⟨hhigh, hlow, hb, hrest⟩)
    refine ⟨hhigh, hlow, _, hrest, ?_⟩
    rw [← hb, UInt8.ofNat_toNat]
  · rintro ⟨hhigh, hlow, rest, hrest, rfl⟩
    refine .cons hhigh hlow (UInt8.toNat_ofNat_of_lt' ?_) hrest
    have := (digit_digitValue hhigh).1
    have := (digit_digitValue hlow).1
    show _ < 256
    omega

theorem Spells.length_eq {cs : List Char} {bs : Bytes} (h : Spells cs bs) :
    cs.length = 2 * bs.length := by
  induction h with
  | nil => rfl
  | cons _ _ _ _ ih => rw [List.length_cons, List.length_cons, ih, List.length_cons, Nat.mul_succ]

theorem Spells.digits {cs : List Char} {bs : Bytes} (h : Spells cs bs) :
    ∀ c ∈ cs, isHexDigit c := by
  induction h with
  | nil => nofun
  | cons hhigh hlow _ _ ih =>
    exact List.forall_mem_cons.mpr ⟨hhigh, List.forall_mem_cons.mpr ⟨hlow, ih⟩⟩

theorem exists_spells : ∀ {cs : List Char}, cs.length % 2 = 0 → (∀ c ∈ cs, isHexDigit c) →
    ∃ bs, Spells cs bs
  | [], _, _ => ⟨[], .nil⟩
  | [_], heven, _ => absurd heven Nat.one_ne_zero
  | high :: low :: cs, heven, hdigits => by
    rw [List.forall_mem_cons, List.forall_mem_cons] at hdigits
    obtain ⟨hhigh, hlow, hrest⟩ := hdigits
    have hlength : cs.length % 2 = 0 := by
      rw [List.length_cons, List.length_cons] at heven
      omega
    obtain ⟨bs, hbs⟩ := exists_spells hlength hrest
    exact ⟨_, spells_cons_iff.mpr ⟨hhigh, hlow, bs, hbs, rfl⟩⟩

theorem Spells.lower {cs : List Char} {bs : Bytes} (h : Spells cs bs) :
    bs.flatMap pair = cs.map Char.toLower := by
  induction h with
  | nil => rfl
  | @cons high low b cs bs hhigh hlow hb _ ih =>
    obtain ⟨-, hupper⟩ := digit_digitValue hhigh
    obtain ⟨hlt, hlower⟩ := digit_digitValue hlow
    have hdiv : b.toNat / 16 = digitValue high := by omega
    have hmod : b.toNat % 16 = digitValue low := by omega
    rw [List.flatMap_cons, ih, pair, hdiv, hmod, hupper, hlower]
    rfl

theorem spells_pairs (bs : Bytes) : Spells (bs.flatMap pair) bs := by
  induction bs with
  | nil => exact .nil
  | cons b bs ih =>
    have hlt := b.toNat_lt
    obtain ⟨hhigh, hvalue⟩ := digitValue_digit (n := b.toNat / 16) (by omega)
    obtain ⟨hlow, hvalue'⟩ := digitValue_digit (n := b.toNat % 16) (by omega)
    refine .cons hhigh hlow ?_ ih
    rw [hvalue, hvalue']
    omega

section Decode

variable {text : Bytes} {bs : Bytes} {index : Nat}

theorem decodeFrom_eq_ok_iff :
    decodeFrom index text = .ok bs ↔ Spells (text.map latin) bs := by
  fun_induction decodeFrom index text generalizing bs with
  | case1 index high low rest hhigh =>
    rw [List.map_cons, List.map_cons, spells_cons_iff]
    exact ⟨nofun, fun h => absurd h.1 (value?_eq_none_iff.mp hhigh)⟩
  | case2 index high low rest h hlow hhigh =>
    rw [List.map_cons, List.map_cons, spells_cons_iff]
    exact ⟨nofun, fun h => absurd h.2.1 (value?_eq_none_iff.mp hlow)⟩
  | case3 index high low rest h l hlow hhigh ih =>
    obtain ⟨hdigit, rfl⟩ := value?_eq_some_iff.mp hhigh
    obtain ⟨hdigit', rfl⟩ := value?_eq_some_iff.mp hlow
    rw [List.map_cons, List.map_cons, spells_cons_iff]
    constructor
    · intro h
      cases hrest : decodeFrom (index + 2) rest with
      | error e =>
        rw [hrest] at h
        cases h
      | ok bs' =>
        rw [hrest] at h
        exact ⟨hdigit, hdigit', bs', ih.mp hrest, Except.ok.inj h⟩
    · rintro ⟨-, -, bs', hrest, rfl⟩
      rw [ih.mpr hrest]
      rfl
  | case4 index b => exact ⟨nofun, nofun⟩
  | case5 index =>
    constructor
    · rintro ⟨⟩
      exact .nil
    · rintro ⟨⟩
      rfl

theorem FirstBad.after {high low b : UInt8} {i : Nat} (hhigh : IsDigit high) (hlow : IsDigit low)
    (h : FirstBad text b i) : FirstBad (high :: low :: text) b (i + 2) where
  found := h.found
  bad := h.bad
  digits := List.forall_mem_cons.mpr ⟨hhigh, List.forall_mem_cons.mpr ⟨hlow, h.digits⟩⟩

theorem decodeFrom_eq_error {fault : Fault} (heven : text.length % 2 = 0)
    (h : decodeFrom index text = .error fault) :
    ∃ b i, fault = .badDigit b (index + i) ∧ FirstBad text b i := by
  fun_induction decodeFrom index text with
  | case1 index high low rest hhigh =>
    cases h
    exact ⟨high, 0, rfl, rfl, value?_eq_none_iff.mp hhigh, nofun⟩
  | case2 index high low rest v hlow hhigh =>
    cases h
    refine ⟨low, 1, rfl, rfl, value?_eq_none_iff.mp hlow, ?_⟩
    exact List.forall_mem_cons.mpr ⟨(value?_eq_some_iff.mp hhigh).1, nofun⟩
  | case3 index high low rest u v hlow hhigh ih =>
    cases hrest : decodeFrom (index + 2) rest with
    | ok bs =>
      rw [hrest] at h
      cases h
    | error e =>
      rw [hrest] at h
      cases h
      have hlength : rest.length % 2 = 0 := by
        rw [List.length_cons, List.length_cons] at heven
        omega
      obtain ⟨b, i, rfl, hbad⟩ := ih hlength hrest
      refine ⟨b, i + 2, by rw [Nat.add_assoc, Nat.add_comm 2], ?_⟩
      exact hbad.after (value?_eq_some_iff.mp hhigh).1 (value?_eq_some_iff.mp hlow).1
  | case4 index b => cases heven
  | case5 index => cases h

theorem decode_eq_ok_iff : decode text = .ok bs ↔ Spells (text.map latin) bs := by
  unfold decode
  split
  next hodd =>
    refine ⟨nofun, fun h => ?_⟩
    have hlength := h.length_eq
    rw [List.length_map] at hlength
    omega
  next => exact decodeFrom_eq_ok_iff

theorem decode_eq_error {fault : Fault} (h : decode text = .error fault) : fault.Tells text := by
  unfold decode at h
  split at h
  next hodd =>
    cases h
    exact hodd
  next hodd =>
    have heven : text.length % 2 = 0 := by omega
    obtain ⟨b, i, rfl, hbad⟩ := decodeFrom_eq_error heven h
    rw [Nat.zero_add]
    exact ⟨heven, hbad⟩

end Decode

end MeteredContracts.Hex
