import VirtNet.Proofs.Address
import VirtNet.Proofs.Journal
import VirtNet.Segment

/-!
# Real addresses and real networks

An octet is read from exactly one text, its numeral (`octet?_eq_some`). So the octets of an address say
what its text is, blanks aside (`Same.eq`), a base belongs to a /24 network exactly when it is written
by three octets (`isNetwork_iff`), and a host of a network has an address exactly when the network is
real (`isValid_host`).
-/

namespace VirtNet.Address

/-! ## Octets -/

/-- The value of an ASCII digit. -/
theorem decimalDigit?_of_isDigit {c : Char} (h : c.isDigit = true) :
    Text.decimalDigit? c = some (c.toNat - 48) := by
  simp only [Char.isDigit, Bool.and_eq_true, decide_eq_true_eq] at h
  have hlow : 48 ≤ c.toNat := h.1
  have hhigh : c.toNat < 58 := Nat.lt_succ_of_le h.2
  have hzero : (decide (48 ≤ c.toNat) && decide (c.toNat < 48 + 10)) = true := by
    simpa using ⟨hlow, hhigh⟩
  unfold Text.decimalDigit? Text.digitZeros
  rw [List.find?_cons, hzero]
  rfl

/-- An ASCII digit is the digit of its value. -/
theorem digitChar_of_isDigit {c : Char} (h : c.isDigit = true) :
    Nat.digitChar (c.toNat - 48) = c := by
  simp only [Char.isDigit, Bool.and_eq_true, decide_eq_true_eq] at h
  have hlow : 48 ≤ c.toNat := h.1
  have hhigh : c.toNat < 58 := Nat.lt_succ_of_le h.2
  apply Char.toNat_inj.1
  rw [Nat.toNat_digitChar_of_lt_ten (by omega)]
  omega

/-- Digits after a numeral make the numeral of the number that they lead to. -/
theorem toDigits_append {cs : List Char} (h : ∀ c ∈ cs, c.isDigit = true) {n : Nat} (hn : 0 < n) :
    Nat.toDigits 10 n ++ cs =
      Nat.toDigits 10 (cs.foldl (fun n c => 10 * n + (Text.decimalDigit? c).getD 0) n) := by
  induction cs generalizing n with
  | nil => simp
  | cons c cs ih =>
    have hc : c.isDigit = true := h c List.mem_cons_self
    have hlt : c.toNat - 48 < 10 := Text.decimalDigit?_lt (decimalDigit?_of_isDigit hc)
    have hone : Nat.toDigits 10 n ++ [c] = Nat.toDigits 10 (10 * n + (c.toNat - 48)) := by
      rw [← Nat.toDigits_append_toDigits (by decide) hn hlt, Nat.toDigits_of_lt_base hlt,
        digitChar_of_isDigit hc]
    rw [List.foldl_cons, decimalDigit?_of_isDigit hc, Option.getD_some,
      ← ih (fun c hc => h c (List.mem_cons_of_mem _ hc)) (by omega), ← hone, List.append_assoc]
    rfl

/-- Digits without a leading zero are the numeral of their value. -/
theorem toDigits_digitsValue {c : Char} {cs : List Char} (h : ∀ d ∈ c :: cs, d.isDigit = true)
    (hc : c ≠ '0') : Nat.toDigits 10 (Text.digitsValue (c :: cs)) = c :: cs := by
  have hdigit : c.isDigit = true := h c List.mem_cons_self
  have hlt : c.toNat - 48 < 10 := Text.decimalDigit?_lt (decimalDigit?_of_isDigit hdigit)
  have hpos : 0 < c.toNat - 48 := by
    refine Nat.pos_of_ne_zero ?_
    intro hzero
    have hchar := digitChar_of_isDigit hdigit
    rw [hzero] at hchar
    exact hc hchar.symm
  have hvalue : Text.digitsValue (c :: cs) =
      cs.foldl (fun n c => 10 * n + (Text.decimalDigit? c).getD 0) (c.toNat - 48) := by
    rw [Text.digitsValue, List.foldl_cons, decimalDigit?_of_isDigit hdigit, Option.getD_some,
      Nat.mul_zero, Nat.zero_add]
  rw [hvalue, ← toDigits_append (fun d hd => h d (List.mem_cons_of_mem _ hd)) hpos,
    Nat.toDigits_of_lt_base hlt, digitChar_of_isDigit hdigit]
  rfl

/-- The numeral of an octet is read as that octet. -/
theorem octet?_toDigits : ∀ n < 256, octet? (Nat.toDigits 10 n) = some n := by
  decide +kernel

/-- An octet is read from its numeral and from nothing else. -/
theorem octet?_eq_some {cs : List Char} {n : Nat} :
    octet? cs = some n ↔ n ≤ 255 ∧ cs = Nat.toDigits 10 n := by
  constructor
  · intro h
    unfold octet? at h
    split at h
    · cases h
    · next hform =>
      simp only [Bool.or_eq_true, Bool.and_eq_true, not_or, not_and, bne_iff_ne, ne_eq,
        Bool.not_eq_true', Bool.not_eq_false, beq_iff_eq, not_not, List.isEmpty_iff,
        List.all_eq_true] at hform
      obtain ⟨⟨⟨hne, -⟩, hdigits⟩, hzero⟩ := hform
      dsimp only at h
      split at h
      · next hle =>
        obtain rfl := Option.some.inj h
        refine ⟨hle, ?_⟩
        cases cs with
        | nil => exact absurd rfl hne
        | cons c rest =>
          by_cases hc : c = '0'
          · -- a leading zero stands alone
            subst hc
            have hrest : rest = [] := by simpa using hzero rfl
            subst hrest
            rfl
          · exact (toDigits_digitsValue hdigits hc).symm
      · cases h
  · rintro ⟨hn, rfl⟩
    exact octet?_toDigits n (by omega)

/-! ## Addresses -/

/-- An address has four fields, all octets. -/
theorem isValid_iff {s : String} :
    isValid s = true ↔ (dotted s).length = 4 ∧ ∀ f ∈ dotted s, (octet? f).isSome = true := by
  unfold isValid octets?
  dsimp only
  show (if (dotted s).length = 4 then (dotted s).mapM octet? else none).isSome = true ↔ _
  split
  · next hlen => rw [Outcome.isSome_mapM_iff, and_iff_right hlen]
  · next hlen => simp [hlen]

/-- The octets of an address tell its text, blanks around it aside. -/
theorem strip_of_octets? {s : String} {os : List Nat} (h : octets? s = some os) :
    (Text.strip s).toList = Text.join ['.'] (os.map (Nat.toDigits 10)) := by
  have hfields : (dotted s).mapM octet? = some os := by
    unfold octets? at h
    dsimp only at h
    split at h
    · exact h
    · cases h
  rw [Outcome.map_of_mapM_eq_some hfields fun _ _ ho => (octet?_eq_some.1 ho).2.symm, List.map_id',
    dotted, Text.join_fields, Text.strip, String.toList_ofList]

/-- Texts that stand for one address: equal texts, and texts with the same octets. -/
def Same (p q : String) : Prop := p = q ∨ ∃ os, octets? p = some os ∧ octets? q = some os

/-- Without blanks around them, texts that stand for one address are equal. -/
theorem Same.eq {p q : String} (hp : Text.strip p = p) (hq : Text.strip q = q) (h : Same p q) :
    p = q := by
  rcases h with h | ⟨os, hpos, hqos⟩
  · exact h
  · rw [← hp, ← hq]
    apply String.toList_injective
    rw [strip_of_octets? hpos, strip_of_octets? hqos]

/-! ## Characters -/

/-- A text of ASCII digits and dots. -/
def Numeric (s : String) : Prop := ∀ c ∈ s.toList, c.isDigit = true ∨ c = '.'

/-- A character that is neither a digit nor a dot is not in such a text. -/
theorem Numeric.not_mem {s : String} (h : Numeric s) {c : Char} (hdigit : c.isDigit = false)
    (hdot : c ≠ '.') : c ∉ s.toList := by
  intro hc
  rcases h c hc with hc | hc
  · rw [hdigit] at hc
    cases hc
  · exact hdot hc

/-- An address without blanks around it is numeric. -/
theorem numeric_of_isValid {s : String} (h : isValid s = true) (hstrip : Text.strip s = s) :
    Numeric s := by
  obtain ⟨os, hos⟩ := Option.isSome_iff_exists.1 h
  intro c hc
  rw [← hstrip, strip_of_octets? hos] at hc
  rcases Text.mem_join hc with hdot | ⟨f, hf, hc⟩
  · exact .inr (List.mem_singleton.1 hdot)
  · obtain ⟨n, -, rfl⟩ := List.mem_map.1 hf
    exact .inl (isDigit_of_mem_toDigits hc)

/-- A host's address is numeric as the base is. -/
theorem numeric_host {b : String} {n : Nat} (hb : Numeric b) : Numeric (host b n) := by
  intro c hc
  rw [toList_host, List.mem_append, List.mem_cons] at hc
  rcases hc with hc | hc | hc
  · exact hb c hc
  · exact .inr hc
  · exact .inl (isDigit_of_mem_toDigits hc)

/-- The base of an address is numeric: its fields are octets. -/
theorem numeric_base {s : String} (h : isValid s = true) : Numeric (base s) := by
  intro c hc
  rw [base, String.toList_ofList] at hc
  rcases Text.mem_join hc with hdot | ⟨f, hf, hc⟩
  · exact .inr (List.mem_singleton.1 hdot)
  · obtain ⟨n, hn⟩ := Option.isSome_iff_exists.1 ((isValid_iff.1 h).2 f (List.mem_of_mem_take hf))
    rw [(octet?_eq_some.1 hn).2] at hc
    exact .inl (isDigit_of_mem_toDigits hc)

/-! ## Networks -/

/-- The text of a base: three octets with dots between them. -/
def network (x y z : Nat) : String := s!"{x}.{y}.{z}"

/-- The base of a real /24 network. -/
def IsNetwork (b : String) : Prop := ∃ x y z : Nat, x ≤ 255 ∧ y ≤ 255 ∧ z ≤ 255 ∧ b = network x y z

theorem toList_network (x y z : Nat) : (network x y z).toList =
    Nat.toDigits 10 x ++ '.' :: (Nat.toDigits 10 y ++ '.' :: Nat.toDigits 10 z) := by
  have h : network x y z = x.repr ++ "." ++ y.repr ++ "." ++ z.repr := rfl
  simp only [h, String.toList_append, Nat.toList_repr, List.append_assoc]
  rfl

/-- The fields of a base are the numerals of its octets. -/
theorem fields_network (x y z : Nat) : Text.fields '.' (network x y z).toList =
    [Nat.toDigits 10 x, Nat.toDigits 10 y, Nat.toDigits 10 z] := by
  rw [toList_network, Text.fields_append_separator, Text.fields_append_separator,
    Text.fields_of_not_mem (dot_not_mem_toDigits x), Text.fields_of_not_mem (dot_not_mem_toDigits y),
    Text.fields_of_not_mem (dot_not_mem_toDigits z)]
  rfl

/-- The numeral of a number is an octet up to 255. -/
theorem isSome_octet?_toDigits {n : Nat} : (octet? (Nat.toDigits 10 n)).isSome = true ↔ n ≤ 255 := by
  constructor
  · intro h
    obtain ⟨m, hm⟩ := Option.isSome_iff_exists.1 h
    obtain ⟨hle, hdigits⟩ := octet?_eq_some.1 hm
    rw [toDigits_inj.1 hdigits]
    exact hle
  · intro hn
    rw [octet?_toDigits n (by omega)]
    rfl

/-- A base belongs to a real network exactly when it has three fields, all octets. -/
theorem isNetwork_iff {b : String} : IsNetwork b ↔ (Text.fields '.' b.toList).length = 3 ∧
    ∀ f ∈ Text.fields '.' b.toList, (octet? f).isSome = true := by
  constructor
  · rintro ⟨x, y, z, hx, hy, hz, rfl⟩
    rw [fields_network]
    simp only [List.forall_mem_cons, isSome_octet?_toDigits]
    exact ⟨rfl, hx, hy, hz, by simp⟩
  · rintro ⟨hlen, hall⟩
    have hnumerals : ∀ f ∈ Text.fields '.' b.toList, ∃ n ≤ 255, f = Nat.toDigits 10 n := by
      intro f hf
      obtain ⟨n, hn⟩ := Option.isSome_iff_exists.1 (hall f hf)
      exact ⟨n, octet?_eq_some.1 hn⟩
    match hfields : Text.fields '.' b.toList, hlen with
    | [f, g, h], _ =>
      rw [hfields] at hnumerals
      obtain ⟨x, hx, rfl⟩ := hnumerals f (by simp)
      obtain ⟨y, hy, rfl⟩ := hnumerals g (by simp)
      obtain ⟨z, hz, rfl⟩ := hnumerals h (by simp)
      refine ⟨x, y, z, hx, hy, hz, ?_⟩
      -- both texts are their fields with dots between them
      apply String.toList_injective
      rw [← Text.join_fields '.' b.toList, hfields, ← fields_network, Text.join_fields]

/-- The base of an address belongs to a real network. -/
theorem isNetwork_base {ip : String} (h : isValid ip = true) : IsNetwork (base ip) := by
  rw [isNetwork_iff, fields_base h]
  exact ⟨by simp [length_dotted h], fun f hf => (isValid_iff.1 h).2 f (List.mem_of_mem_take hf)⟩

/-- A host has an address exactly when its network is real. -/
theorem isValid_host {b : String} (hb : IsBase b) {n : Nat} (hn : n ≤ 255) :
    isValid (host b n) = true ↔ IsNetwork b := by
  rw [isValid_iff, isNetwork_iff, dotted_host hb, List.length_append, hb.three, List.forall_mem_append]
  have hhost : ∀ f ∈ [Nat.toDigits 10 n], (octet? f).isSome = true := by
    simpa using isSome_octet?_toDigits.2 hn
  simp only [List.length_singleton, true_and]
  exact and_iff_left hhost

/-- The fallback base of a number belongs to a real network when the number goes up to 255. -/
theorem isNetwork_fallback {number : Nat} : IsNetwork (Segment.fallbackBase number) ↔ number ≤ 255 := by
  have hfallback : Segment.fallbackBase number = network 192 168 number := rfl
  rw [isNetwork_iff, hfallback, fields_network]
  simp only [List.forall_mem_cons, isSome_octet?_toDigits]
  simp

/-- The fallback base of a number is numeric. -/
theorem numeric_fallback (number : Nat) : Numeric (Segment.fallbackBase number) := by
  have hfallback : Segment.fallbackBase number = host "192.168" number := rfl
  have hall : "192.168".toList.all (fun c => c.isDigit || c == '.') = true := by decide
  have hbase : Numeric "192.168" := fun c hc => by
    simpa only [Bool.or_eq_true, beq_iff_eq] using List.all_eq_true.1 hall c hc
  rw [hfallback]
  exact numeric_host hbase

end VirtNet.Address
