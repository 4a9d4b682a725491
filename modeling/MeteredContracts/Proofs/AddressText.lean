import MeteredContracts.Identifier.Address
import MeteredContracts.Proofs.Hexadecimal

namespace MeteredContracts

section Utf8

variable {c : Char} {s t : String}

theorem Bytes.ofText_eq (s : String) : ofText s = s.toList.flatMap String.utf8EncodeChar := by
  conv => lhs; rw [← String.ofList_toList (s := s)]
  simp only [ofText, String.toUTF8_eq_toByteArray, String.toByteArray_ofList, List.utf8Encode,
    List.data_toByteArray]

theorem Bytes.ofText_append (s t : String) : ofText (s ++ t) = ofText s ++ ofText t := by
  simp only [ofText_eq, String.toList_append, List.flatMap_append]

theorem utf8EncodeChar_of_lt (h : c.toNat < 128) :
    String.utf8EncodeChar c = [.ofNat c.toNat] :=
  if_pos (Nat.le_of_lt_succ h)

theorem le_of_mem_utf8EncodeChar (h : 128 ≤ c.toNat) :
    ∀ b ∈ String.utf8EncodeChar c, 128 ≤ b.toNat := by
  have hlong : ¬c.val.toNat ≤ 127 := Nat.not_le.mpr h
  intro b hb
  simp only [String.utf8EncodeChar, hlong, if_false] at hb
  -- a first byte is at least 192, and those behind it at least 128
  split at hb
  · simp only [List.mem_cons, List.not_mem_nil, or_false] at hb
    obtain rfl | rfl := hb <;> rw [UInt8.toNat_ofNat'] <;> omega
  split at hb
  · simp only [List.mem_cons, List.not_mem_nil, or_false] at hb
    obtain rfl | rfl | rfl := hb <;> rw [UInt8.toNat_ofNat'] <;> omega
  · simp only [List.mem_cons, List.not_mem_nil, or_false] at hb
    obtain rfl | rfl | rfl | rfl := hb <;> rw [UInt8.toNat_ofNat'] <;> omega

theorem latin_of_mem_utf8EncodeChar {b : UInt8} (hb : b ∈ String.utf8EncodeChar c)
    (hlt : b.toNat < 128) : Hex.latin b = c ∧ String.utf8EncodeChar c = [b] := by
  have hc : c.toNat < 128 := Nat.not_le.mp fun hge =>
    Nat.not_le.mpr hlt (le_of_mem_utf8EncodeChar hge b hb)
  rw [utf8EncodeChar_of_lt hc] at hb ⊢
  obtain rfl := List.mem_singleton.mp hb
  refine ⟨?_, rfl⟩
  rw [Hex.latin, UInt8.toNat_ofNat_of_lt' (Nat.lt_trans hc (by decide)), Char.ofNat_toNat]

theorem exists_char_of_flatMap {b : UInt8} {bs : Bytes} {cs : List Char}
    (h : cs.flatMap String.utf8EncodeChar = b :: bs) (hlt : b.toNat < 128) :
    ∃ rest, cs = Hex.latin b :: rest ∧ rest.flatMap String.utf8EncodeChar = bs := by
  cases cs with
  | nil => cases h
  | cons c rest =>
    obtain ⟨b', bs', hc⟩ := List.exists_cons_of_ne_nil (String.utf8EncodeChar_ne_nil (c := c))
    rw [List.flatMap_cons, hc, List.cons_append, List.cons.injEq] at h
    obtain ⟨rfl, hrest⟩ := h
    obtain ⟨hlatin, hsingle⟩ := latin_of_mem_utf8EncodeChar (hc ▸ List.mem_cons_self) hlt
    obtain rfl : bs' = [] := List.tail_eq_of_cons_eq (hc.symm.trans hsingle)
    exact ⟨rest, by rw [hlatin], hrest⟩

theorem latin_ofText (h : ∀ c ∈ s.toList, Document.isHexDigit c) :
    (Bytes.ofText s).map Hex.latin = s.toList := by
  rw [Bytes.ofText_eq]
  generalize s.toList = cs at h
  induction cs with
  | nil => rfl
  | cons c cs ih =>
    rw [List.forall_mem_cons] at h
    have hc := Hex.toNat_lt_of_isHexDigit h.1
    have hb : UInt8.ofNat c.toNat ∈ String.utf8EncodeChar c := by
      rw [utf8EncodeChar_of_lt hc]
      exact List.mem_singleton_self _
    have hlt : (UInt8.ofNat c.toNat).toNat < 128 := by
      rwa [UInt8.toNat_ofNat_of_lt' (Nat.lt_trans hc (by decide))]
    obtain ⟨hlatin, hsingle⟩ := latin_of_mem_utf8EncodeChar hb hlt
    rw [List.flatMap_cons, hsingle, List.map_append, ih h.2, List.map_singleton, hlatin]
    rfl

theorem digits_ofText :
    (∀ b ∈ Bytes.ofText s, Hex.IsDigit b) ↔ ∀ c ∈ s.toList, Document.isHexDigit c := by
  constructor
  · rw [Bytes.ofText_eq]
    intro h c hc
    obtain ⟨b, bs, henc⟩ := List.exists_cons_of_ne_nil (String.utf8EncodeChar_ne_nil (c := c))
    have hb : b ∈ String.utf8EncodeChar c := henc ▸ List.mem_cons_self
    have hdigit := h b (List.mem_flatMap.mpr ⟨c, hc, hb⟩)
    have hlatin := (latin_of_mem_utf8EncodeChar hb hdigit.lt).1
    rwa [Hex.IsDigit, hlatin] at hdigit
  · intro h b hb
    have hmem := List.mem_map_of_mem (f := Hex.latin) hb
    rw [latin_ofText h] at hmem
    exact h _ hmem

end Utf8

namespace Hex

def marked : Nat → String → String
  | 0, t => t
  | k + 1, t => "0x" ++ marked k t

def IsMarked (t : String) : Prop := ['0', 'x'] <+: t.toList

theorem exists_marked (s : String) : ∃ k t, s = marked k t ∧ ¬IsMarked t := by
  induction hn : s.length using Nat.strongRecOn generalizing s with
  | ind n ih =>
    subst hn
    by_cases h : IsMarked s
    · obtain ⟨cs, hcs⟩ := h
      have hs : s = "0x" ++ String.ofList cs := by
        rw [← String.toList_inj, ← hcs, String.toList_append, String.toList_ofList (l := cs)]
        rfl
      have hlt : (String.ofList cs).length < s.length := by
        rw [hs, String.length_append]
        exact Nat.lt_add_of_pos_left (by decide)
      obtain ⟨k, t, hk, hunmarked⟩ := ih _ hlt (.ofList cs) rfl
      exact ⟨k + 1, t, by rw [marked, ← hk, hs], hunmarked⟩
    · exact ⟨0, s, rfl, h⟩

theorem stripMarks_ofText {t : String} (h : ¬IsMarked t) :
    stripMarks (.ofText t) = .ofText t := by
  rw [stripMarks.eq_def]
  split
  next rest htext =>
    rw [Bytes.ofText_eq] at htext
    obtain ⟨cs, hcs, hrest⟩ := exists_char_of_flatMap htext (by decide)
    obtain ⟨cs', rfl, -⟩ := exists_char_of_flatMap hrest (by decide)
    exact absurd ⟨cs', by rw [hcs]; rfl⟩ h
  next => rfl

theorem stripMarks_marked (k : Nat) {t : String} (h : ¬IsMarked t) :
    stripMarks (.ofText (marked k t)) = .ofText t := by
  induction k with
  | zero => exact stripMarks_ofText h
  | succ k ih =>
    rw [marked, Bytes.ofText_append]
    exact ih

theorem decodeMarked_marked (k : Nat) {t : String} (h : ¬IsMarked t) :
    decodeMarked (marked k t) = decode (.ofText t) :=
  congrArg decode (stripMarks_marked k h)

theorem decode_ofText_eq_ok_iff {t : String} {bs : Bytes} :
    decode (.ofText t) = .ok bs ↔ Spells t.toList bs := by
  rw [decode_eq_ok_iff]
  constructor
  · intro h
    have hdigits : ∀ b ∈ Bytes.ofText t, IsDigit b := fun b hb =>
      h.digits _ (List.mem_map_of_mem hb)
    rwa [latin_ofText (digits_ofText.mp hdigits)] at h
  · intro h
    rwa [latin_ofText h.digits]

theorem not_isMarked_of_digits {t : String} (h : ∀ c ∈ t.toList, Document.isHexDigit c) :
    ¬IsMarked t := by
  intro hmarked
  have hx := h 'x' (hmarked.subset (by decide))
  exact absurd hx (by decide)

end Hex

def ParseError.Tells (text : Bytes) : ParseError → Prop
  | .hex fault => fault.Tells text
  | .length n => text.length = 2 * n ∧ (∀ b ∈ text, Hex.IsDigit b) ∧ n ≠ 33

namespace Address

open Hex (marked IsMarked Spells)

variable {t : String} {a : Address}

theorem ofBytes?_eq_some_iff {bs : Bytes} : ofBytes? bs = some a ↔ bs = a.bytes := by
  unfold ofBytes?
  split
  next hlength =>
    rw [Option.some.injEq, Address.ext_iff]
  next hlength =>
    refine ⟨nofun, fun h => ?_⟩
    exact absurd (h ▸ a.length_eq) hlength

theorem ofBytes?_eq_none_iff {bs : Bytes} : ofBytes? bs = none ↔ bs.length ≠ 33 := by
  unfold ofBytes?
  split
  next hlength => exact ⟨nofun, fun h => absurd hlength h⟩
  next hlength => exact ⟨fun _ => hlength, fun _ => rfl⟩

theorem parse_marked_eq_ok_iff (k : Nat) (h : ¬IsMarked t) :
    parse (marked k t) = .ok a ↔ Spells t.toList a.bytes := by
  rw [parse, Hex.decodeMarked_marked k h, ← Hex.decode_ofText_eq_ok_iff]
  cases Hex.decode (.ofText t) with
  | error fault => exact ⟨nofun, nofun⟩
  | ok bs =>
    dsimp only
    rw [Except.ok.injEq, ← ofBytes?_eq_some_iff]
    cases ofBytes? bs with
    | none => exact ⟨nofun, nofun⟩
    | some a' => rw [Except.ok.injEq, Option.some.injEq]

theorem parse_marked_eq_error (k : Nat) (h : ¬IsMarked t) {e : ParseError}
    (he : parse (marked k t) = .error e) : e.Tells (.ofText t) := by
  rw [parse, Hex.decodeMarked_marked k h] at he
  cases hdecode : Hex.decode (.ofText t) with
  | error fault =>
    rw [hdecode] at he
    cases he
    exact Hex.decode_eq_error hdecode
  | ok bs =>
    rw [hdecode] at he
    dsimp only at he
    cases hbs : ofBytes? bs with
    | some a =>
      rw [hbs] at he
      cases he
    | none =>
      rw [hbs] at he
      cases he
      have hspells := Hex.decode_eq_ok_iff.mp hdecode
      have hlength := hspells.length_eq
      rw [List.length_map] at hlength
      refine ⟨hlength, fun b hb => hspells.digits _ (List.mem_map_of_mem hb), ?_⟩
      exact ofBytes?_eq_none_iff.mp hbs

theorem spells_toText (a : Address) : Spells a.toText.toList a.bytes := by
  rw [toText, Hex.encode, String.toList_ofList]
  exact Hex.spells_pairs a.bytes

theorem toText_of_spells (h : Spells t.toList a.bytes) : a.toText = t.toLower := by
  have hlower : t.toLower.toList = t.toList.map Char.toLower := String.toList_map
  rw [← String.toList_inj, hlower, toText, Hex.encode, String.toList_ofList]
  exact h.lower

/-- Reading takes every mark off the front of a text, and accepts what is left if and only if it is
66 digits of either case. The address is the one that is spelled by them, and is written with the
same digits in lower case; so what was written is read back, with any number of marks in front of
it. Otherwise the error is that there is half a pair, or else the first byte that is no digit, or
else how many bytes the digits spell. -/
theorem parse_accepts_its_grammar :
    (∀ s : String, ∃ k t, s = marked k t ∧ ¬IsMarked t ∧
      ((∃ a, parse s = .ok a) ↔ t.length = 66 ∧ ∀ c ∈ t.toList, Document.isHexDigit c) ∧
      (∀ a, parse s = .ok a → Spells t.toList a.bytes ∧ a.toText = t.toLower) ∧
      ∀ e, parse s = .error e → e.Tells (.ofText t)) ∧
    ∀ (a : Address) (k : Nat), parse (marked k a.toText) = .ok a := by
  refine ⟨fun s => ?_, fun a k => ?_⟩
  · obtain ⟨k, t, rfl, hunmarked⟩ := Hex.exists_marked s
    refine ⟨k, t, rfl, hunmarked, ⟨?_, ?_⟩, fun a ha => ?_, fun e he => ?_⟩
    · rintro ⟨a, ha⟩
      have hspells := (parse_marked_eq_ok_iff k hunmarked).mp ha
      refine ⟨?_, hspells.digits⟩
      rw [← String.length_toList, hspells.length_eq, a.length_eq]
    · rintro ⟨hlength, hdigits⟩
      rw [← String.length_toList] at hlength
      obtain ⟨bs, hspells⟩ := Hex.exists_spells (by rw [hlength]) hdigits
      have hbs : bs.length = 33 := by
        have := hspells.length_eq
        omega
      exact ⟨⟨bs, hbs⟩, (parse_marked_eq_ok_iff k hunmarked).mpr hspells⟩
    · have hspells := (parse_marked_eq_ok_iff k hunmarked).mp ha
      exact ⟨hspells, toText_of_spells hspells⟩
    · exact parse_marked_eq_error k hunmarked he
  · have hspells := a.spells_toText
    exact (parse_marked_eq_ok_iff k (Hex.not_isMarked_of_digits hspells.digits)).mpr hspells

end Address

end MeteredContracts
