import VirtNet.Address
import VirtNet.Proofs.Text.Split
import VirtNet.Proofs.Text.Trim

/-!
# Addresses of hosts

An address that is put together from a base and a host number comes apart into the two again
(`base_host`, `hostNumber_host`), provided that the base is one (`IsBase`). The base of every address
is.
-/

namespace VirtNet.Address

/-- What a host number can be appended to: three fields, with no blank in front. -/
structure IsBase (b : String) : Prop where
  three : (Text.fields '.' b.toList).length = 3
  head : ∀ c, b.toList.head? = some c → Text.isBlank c = false

/-- A decimal digit is not blank. -/
theorem isBlank_of_isDigit {c : Char} (h : c.isDigit = true) : Text.isBlank c = false := by
  simp only [Char.isDigit, Bool.and_eq_true, decide_eq_true_eq] at h
  have hlow : 48 ≤ c.toNat := h.1
  have hhigh : c.toNat ≤ 57 := h.2
  simp only [Text.isBlank, Bool.or_eq_false_iff, Bool.and_eq_false_iff, decide_eq_false_iff_not,
    beq_eq_false_iff_ne]
  omega

/-- The characters of a numeral are digits. -/
theorem isDigit_of_mem_toDigits {n : Nat} {c : Char} (h : c ∈ Nat.toDigits 10 n) :
    c.isDigit = true :=
  Nat.isDigit_of_mem_toDigits (by decide) (by decide) h

/-- The characters of a number that is written are digits. -/
theorem isDigit_of_mem_repr {n : Nat} {c : Char} (h : c ∈ n.repr.toList) : c.isDigit = true := by
  rw [Nat.toList_repr] at h
  exact isDigit_of_mem_toDigits h

/-- There is no dot in a numeral. -/
theorem dot_not_mem_toDigits (n : Nat) : '.' ∉ Nat.toDigits 10 n := by
  intro h
  simpa using isDigit_of_mem_toDigits h

/-- Different numbers have different numerals. -/
theorem toDigits_inj {m n : Nat} : Nat.toDigits 10 m = Nat.toDigits 10 n ↔ m = n := by
  constructor
  · intro h
    calc m = Nat.ofDigitChars 10 (Nat.toDigits 10 m) 0 := Nat.ofDigitChars_ten_toDigits.symm
      _ = Nat.ofDigitChars 10 (Nat.toDigits 10 n) 0 := by rw [h]
      _ = n := Nat.ofDigitChars_ten_toDigits
  · rintro rfl
    rfl

/-- Different numbers are written differently. -/
theorem repr_inj {m n : Nat} : m.repr = n.repr ↔ m = n := by
  rw [← toDigits_inj, ← Nat.toList_repr, ← Nat.toList_repr, String.toList_inj]

variable {b : String} {n : Nat}

theorem toList_host : (host b n).toList = b.toList ++ '.' :: Nat.toDigits 10 n := by
  have h : host b n = b ++ "." ++ n.repr := rfl
  rw [h, String.toList_append, String.toList_append, Nat.toList_repr, List.append_assoc]
  rfl

/-- Different hosts of a network have different addresses. -/
theorem host_inj {m : Nat} : host b m = host b n ↔ m = n := by
  constructor
  · intro h
    have hlist : b.toList ++ '.' :: Nat.toDigits 10 m = b.toList ++ '.' :: Nat.toDigits 10 n := by
      rw [← toList_host, h, toList_host]
    exact toDigits_inj.1 (List.cons.inj (List.append_cancel_left hlist)).2
  · rintro rfl
    rfl

/-- There is no blank around a text that starts with a base and does not end with a blank. -/
theorem IsBase.trimBy_eq {s : String} {cs : List Char} (hb : IsBase b)
    (hs : s.toList = b.toList ++ '.' :: cs)
    (hend : ∀ c, cs.getLast? = some c → Text.isBlank c = false) :
    Text.trimBy Text.isBlank s.toList = s.toList := by
  rw [Text.trimBy_eq_self_iff, hs]
  refine ⟨?_, ?_⟩
  · intro c hc
    cases hcs : b.toList with
    | nil =>
      rw [hcs, List.nil_append, List.head?_cons, Option.some.injEq] at hc
      rw [← hc]
      decide
    | cons d rest =>
      rw [hcs, List.cons_append, List.head?_cons] at hc
      exact hb.head c (by rw [hcs, List.head?_cons, hc])
  · intro c hc
    rw [List.getLast?_append_of_ne_nil _ (List.cons_ne_nil _ _)] at hc
    cases cs with
    | nil =>
      cases hc
      decide
    | cons d rest => exact hend c (by rwa [List.getLast?_cons_cons] at hc)

/-- The base of a text that starts with one and does not end with a blank. -/
theorem IsBase.base_eq {s : String} {cs : List Char} (hb : IsBase b)
    (hs : s.toList = b.toList ++ '.' :: cs)
    (hend : ∀ c, cs.getLast? = some c → Text.isBlank c = false) : base s = b := by
  rw [base, dotted, hb.trimBy_eq hs hend, hs, Text.fields_append_separator, List.take_left' hb.three,
    Text.join_fields, String.ofList_toList]

/-- A numeral does not end with a blank. -/
theorem isBlank_getLast_toDigits (c : Char) (h : (Nat.toDigits 10 n).getLast? = some c) :
    Text.isBlank c = false :=
  isBlank_of_isDigit (isDigit_of_mem_toDigits (List.mem_of_getLast? h))

/-- There is no blank around a host's address. -/
theorem trimBy_host (hb : IsBase b) :
    Text.trimBy Text.isBlank (host b n).toList = (host b n).toList :=
  hb.trimBy_eq toList_host isBlank_getLast_toDigits

/-- A host's address is stripped. -/
theorem strip_host (hb : IsBase b) : Text.strip (host b n) = host b n := by
  rw [Text.strip, trimBy_host hb, String.ofList_toList]

/-- The fields of a host's address are those of the base and the host number. -/
theorem dotted_host (hb : IsBase b) :
    dotted (host b n) = Text.fields '.' b.toList ++ [Nat.toDigits 10 n] := by
  rw [dotted, trimBy_host hb, toList_host, Text.fields_append_separator,
    Text.fields_of_not_mem (dot_not_mem_toDigits n)]

/-- The base of a host's address. -/
theorem base_host (hb : IsBase b) : base (host b n) = b :=
  hb.base_eq toList_host isBlank_getLast_toDigits

/-- The numeral of an octet is read as it was written. -/
theorem int?_toDigits : ∀ n < 256, Text.int? (Nat.toDigits 10 n) = some (n : Int) := by
  decide +kernel

/-- The host number of a host's address. -/
theorem hostNumber_host (hb : IsBase b) (hn : n < 256) : hostNumber (host b n) = .ok (n : Int) := by
  have hfourth : (dotted (host b n))[3]? = some (Nat.toDigits 10 n) := by
    rw [dotted_host hb, ← hb.three, List.getElem?_concat_length]
  simp only [hostNumber, hfourth, int?_toDigits n hn]

/-- The empty text is no address. -/
theorem ne_empty_of_isValid {ip : String} (h : isValid ip = true) : ip ≠ "" := by
  rintro rfl
  have hempty : isValid "" = false := by decide +kernel
  rw [hempty] at h
  cases h

/-- An address has four fields. -/
theorem length_dotted {ip : String} (h : isValid ip = true) : (dotted ip).length = 4 := by
  by_contra hne
  have hnone : octets? ip = none := if_neg hne
  rw [isValid, hnone] at h
  cases h

/-- The fields of the base of an address are its first three. -/
theorem fields_base {ip : String} (h : isValid ip = true) :
    Text.fields '.' (base ip).toList = (dotted ip).take 3 := by
  have hne : (dotted ip).take 3 ≠ [] := by
    intro hnil
    have := congrArg List.length hnil
    simp [length_dotted h] at this
  rw [base, String.toList_ofList]
  exact Text.fields_join hne fun f hf => Text.not_mem_of_mem_fields (List.mem_of_mem_take hf)

/-- The base of an address is a base. -/
theorem isBase_base {ip : String} (h : isValid ip = true) : IsBase (base ip) := by
  refine ⟨by simp [fields_base h, length_dotted h], ?_⟩
  intro c hc
  -- the base is what the stripped text starts with
  have hpre : (base ip).toList <+: Text.trimBy Text.isBlank ip.toList := by
    rw [base, String.toList_ofList]
    conv_rhs => rw [← Text.join_fields '.' (Text.trimBy Text.isBlank ip.toList)]
    show Text.join ['.'] ((dotted ip).take 3) <+: Text.join ['.'] (dotted ip)
    match hd : dotted ip, length_dotted h with
    | [x, y, z, w], _ => exact ⟨'.' :: w, by simp [Text.join]⟩
  obtain ⟨rest, hrest⟩ := hpre
  refine @Text.head?_trimBy Text.isBlank ip.toList c ?_
  rw [← hrest, List.head?_append, hc]
  rfl

/-- The base of a segment that no address decides is a base. -/
theorem isBase_fallback (number : Nat) : IsBase s!"192.168.{number}" := by
  have hlist : (s!"192.168.{number}").toList =
      "192.168".toList ++ '.' :: Nat.toDigits 10 number := by
    have h : s!"192.168.{number}" = "192.168" ++ "." ++ number.repr := rfl
    rw [h, String.toList_append, String.toList_append, Nat.toList_repr, List.append_assoc]
    rfl
  refine ⟨?_, ?_⟩
  · rw [hlist, Text.fields_append_separator, Text.fields_of_not_mem (dot_not_mem_toDigits number)]
    rfl
  · intro c hc
    rw [hlist] at hc
    cases hc
    decide

end VirtNet.Address
