import VirtNet.Proofs.Text.Numeral

/-!
# Dotted quads

An address is written in one way only, blanks around it aside: as a dotted quad, four numerals of octets
with dots between them (`isValid_iff_isQuad`). So it is put together again from its base and its host number
(`host_base`), and two addresses that stand for the same 32 bits are the same text (`strip_eq_iff`). All of
it rests on `octets?_eq_some`, by which the octets that are read tell the whole text.
-/

namespace VirtNet.Address

variable {s t b : String} {cs : List Char}

/-- The numeral of an octet: digits of ASCII, no zero in front of other digits, and a value of at most 255. -/
structure IsOctet (cs : List Char) : Prop where
  ne_nil : cs ≠ []
  digits : ∀ c ∈ cs, '0' ≤ c ∧ c ≤ '9'
  leading : cs.head? = some '0' → cs = ['0']
  le : Nat.ofDigitChars 10 cs 0 ≤ 255

/-- A dotted quad: four numerals of octets with dots between them. -/
def IsQuad (s : String) : Prop :=
  ∃ a b c d, IsOctet a ∧ IsOctet b ∧ IsOctet c ∧ IsOctet d ∧
    s.toList = a ++ '.' :: (b ++ '.' :: (c ++ '.' :: d))

/-- The 32 bits of four octets, eight for each, those of the first octet in front. -/
def word (os : List Nat) : BitVec 32 := BitVec.ofNat 32 (os.foldl (fun n o => 256 * n + o) 0)

/-- The 32 bits that an address stands for. -/
def bits? (s : String) : Option (BitVec 32) := (octets? s).map word

/-! ## Octets -/

theorem isDigit_iff {c : Char} : c.isDigit = true ↔ '0' ≤ c ∧ c ≤ '9' := by
  simp [Char.isDigit, Char.le_def]

/-- The numerals of octets are those of the numbers below 256. -/
theorem isOctet_iff : IsOctet cs ↔ ∃ n : Fin 256, cs = Nat.toDigits 10 n := by
  constructor
  · intro h
    have hdigits : ∀ c ∈ cs, c.isDigit = true := fun c hc => isDigit_iff.2 (h.digits c hc)
    have hle : Text.digitsValue cs ≤ 255 := by
      rw [Text.digitsValue_eq_ofDigitChars hdigits]
      exact h.le
    have hnumeral : Nat.toDigits 10 (Text.digitsValue cs) = cs := by
      obtain ⟨c, rest, rfl⟩ := List.exists_cons_of_ne_nil h.ne_nil
      by_cases hc : c = '0'
      · -- a leading zero stands alone
        rw [h.leading (by rw [hc]; rfl)]
        rfl
      · exact toDigits_digitsValue hdigits hc
    exact ⟨⟨_, Nat.lt_succ_of_le hle⟩, hnumeral.symm⟩
  · rintro ⟨n, rfl⟩
    refine ⟨Nat.toDigits_ne_nil, fun c hc => isDigit_iff.1 (isDigit_of_mem_toDigits hc), ?_, ?_⟩
    · intro hzero
      rcases Nat.eq_zero_or_pos (n : Nat) with hn | hn
      · rw [hn]
        rfl
      · exact absurd hzero (Text.head?_toDigits hn)
    · rw [Nat.ofDigitChars_ten_toDigits]
      have := n.isLt
      omega

/-! ## The text of an address -/

/-- Blanks around a text do not change its fields. -/
theorem dotted_strip (s : String) : dotted (Text.strip s) = dotted s := by
  rw [dotted, Text.strip, String.toList_ofList, Text.trimBy_trimBy, dotted]

theorem octets?_eq (s : String) :
    octets? s = if (dotted s).length = 4 then (dotted s).mapM octet? else none := rfl

theorem octets?_strip (s : String) : octets? (Text.strip s) = octets? s := by
  rw [octets?_eq, octets?_eq, dotted_strip]

theorem base_strip (s : String) : base (Text.strip s) = base s := by
  rw [base, dotted_strip, base]

theorem hostNumber_strip (s : String) : hostNumber (Text.strip s) = hostNumber s := by
  rw [hostNumber, dotted_strip, hostNumber]

/-- A host number can be appended to three octets. -/
theorem isBase_network (x y z : Nat) : IsBase (network x y z) where
  three := by
    rw [fields_network]
    rfl
  head c hc := by
    rw [toList_network, List.head?_append_of_ne_nil _ Nat.toDigits_ne_nil] at hc
    exact isBlank_of_isDigit (isDigit_of_mem_toDigits (List.mem_of_head? hc))

theorem octets?_host (x y z w : Fin 256) :
    octets? (host (network x y z) w) = some [(x : Nat), (y : Nat), (z : Nat), (w : Nat)] := by
  have hdotted : dotted (host (network x y z) w) =
      [Nat.toDigits 10 x, Nat.toDigits 10 y, Nat.toDigits 10 z, Nat.toDigits 10 w] := by
    rw [dotted_host (isBase_network x y z), fields_network]
    rfl
  rw [octets?_eq, hdotted]
  simp [octet?_toDigits]

/-- The octets that are read from an address are four, and tell the whole text. -/
theorem octets?_eq_some {os : List Nat} : octets? s = some os ↔
    ∃ x y z w : Fin 256, os = [(x : Nat), (y : Nat), (z : Nat), (w : Nat)] ∧
      Text.strip s = host (network x y z) w := by
  constructor
  · intro h
    have hvalid : isValid s = true := by
      rw [isValid, h]
      rfl
    have hfields : os.map (Nat.toDigits 10) = dotted s := by
      rw [octets?_eq, if_pos (length_dotted hvalid)] at h
      rw [Outcome.map_of_mapM_eq_some h fun _ _ ho => (octet?_eq_some.1 ho).2.symm, List.map_id']
    have hbound : ∀ o ∈ os, o < 256 := by
      intro o ho
      have hoctet := (isValid_iff.1 hvalid).2 _ (hfields ▸ List.mem_map_of_mem ho)
      exact Nat.lt_succ_of_le (isSome_octet?_toDigits.1 hoctet)
    have hlength : os.length = 4 := by
      rw [← length_dotted hvalid, ← hfields, List.length_map]
    -- the fields are the numerals of four octets, and the text is the fields with dots between them
    obtain ⟨x, y, z, w, rfl⟩ := List.length_eq_four.1 hlength
    simp only [List.forall_mem_cons] at hbound
    obtain ⟨hx, hy, hz, hw, -⟩ := hbound
    refine ⟨⟨x, hx⟩, ⟨y, hy⟩, ⟨z, hz⟩, ⟨w, hw⟩, rfl, ?_⟩
    apply String.toList_injective
    rw [strip_of_octets? h, toList_host, toList_network]
    simp [Text.join]
  · rintro ⟨x, y, z, w, rfl, hs⟩
    rw [← octets?_strip, hs, octets?_host]

/-- An address without its blanks is the address of a host in a network. -/
theorem isValid_iff_exists_host :
    isValid s = true ↔ ∃ x y z w : Fin 256, Text.strip s = host (network x y z) w := by
  rw [isValid, Option.isSome_iff_exists]
  constructor
  · rintro ⟨os, hos⟩
    obtain ⟨x, y, z, w, -, hs⟩ := octets?_eq_some.1 hos
    exact ⟨x, y, z, w, hs⟩
  · rintro ⟨x, y, z, w, hs⟩
    exact ⟨_, octets?_eq_some.2 ⟨x, y, z, w, rfl, hs⟩⟩

/-- The dotted quads are the addresses of hosts in networks. -/
theorem isQuad_iff_exists_host :
    IsQuad s ↔ ∃ x y z w : Fin 256, s = host (network x y z) w := by
  have htext : ∀ x y z w : Fin 256, (host (network x y z) w).toList =
      Nat.toDigits 10 x ++ '.' :: (Nat.toDigits 10 y ++ '.' ::
        (Nat.toDigits 10 z ++ '.' :: Nat.toDigits 10 w)) := fun x y z w => by
    rw [toList_host, toList_network, List.append_assoc, List.cons_append, List.append_assoc,
      List.cons_append]
  constructor
  · rintro ⟨a, b, c, d, ha, hb, hc, hd, hs⟩
    obtain ⟨x, rfl⟩ := isOctet_iff.1 ha
    obtain ⟨y, rfl⟩ := isOctet_iff.1 hb
    obtain ⟨z, rfl⟩ := isOctet_iff.1 hc
    obtain ⟨w, rfl⟩ := isOctet_iff.1 hd
    refine ⟨x, y, z, w, String.toList_injective ?_⟩
    rw [hs, htext]
  · rintro ⟨x, y, z, w, rfl⟩
    exact ⟨_, _, _, _, isOctet_iff.2 ⟨x, rfl⟩, isOctet_iff.2 ⟨y, rfl⟩, isOctet_iff.2 ⟨z, rfl⟩,
      isOctet_iff.2 ⟨w, rfl⟩, htext x y z w⟩

/-- A text is an address exactly when it is a dotted quad, blanks around it aside. -/
theorem isValid_iff_isQuad : isValid s = true ↔ IsQuad (Text.strip s) := by
  rw [isValid_iff_exists_host, isQuad_iff_exists_host]

/-! ## Putting an address together -/

/-- An address is that of its host number in its network. -/
theorem host_base (h : isValid s = true) :
    ∃ n, hostNumber s = .ok n ∧ host (base s) n = Text.strip s := by
  obtain ⟨x, y, z, w, hs⟩ := isValid_iff_exists_host.1 h
  have hbase := isBase_network x y z
  refine ⟨w, ?_, ?_⟩
  · rw [← hostNumber_strip, hs, hostNumber_host hbase w.isLt]
  · rw [← base_strip, hs, base_host hbase]

/-- The 32 bits tell the octets. -/
theorem word_inj {x y z w x' y' z' w' : Fin 256}
    (h : word [(x : Nat), (y : Nat), (z : Nat), (w : Nat)] =
      word [(x' : Nat), (y' : Nat), (z' : Nat), (w' : Nat)]) :
    x = x' ∧ y = y' ∧ z = z' ∧ w = w' := by
  have hvalue := congrArg BitVec.toNat h
  simp only [word, List.foldl_cons, List.foldl_nil, BitVec.toNat_ofNat] at hvalue
  omega

/-- Two addresses are the same text, blanks around them aside, exactly when their 32 bits are the same. -/
theorem strip_eq_iff (hs : isValid s = true) (ht : isValid t = true) :
    Text.strip s = Text.strip t ↔ bits? s = bits? t := by
  constructor
  · intro h
    rw [bits?, ← octets?_strip, h, octets?_strip, bits?]
  · intro h
    obtain ⟨x, y, z, w, hs⟩ := isValid_iff_exists_host.1 hs
    obtain ⟨x', y', z', w', ht⟩ := isValid_iff_exists_host.1 ht
    rw [bits?, bits?, octets?_eq_some.2 ⟨x, y, z, w, rfl, hs⟩,
      octets?_eq_some.2 ⟨x', y', z', w', rfl, ht⟩, Option.map_some, Option.map_some,
      Option.some.injEq] at h
    -- the same bits are the same octets, and these tell the text
    obtain ⟨rfl, rfl, rfl, rfl⟩ := word_inj h
    rw [hs, ht]

/-- The octets of an address are the bytes of its 32 bits, in the order in which they are written. -/
example : bits? "10.0.1.255" = some 0x0A0001FF#32 := by decide +kernel

theorem isBase_of_isNetwork (h : IsNetwork b) : IsBase b := by
  obtain ⟨x, y, z, -, -, -, rfl⟩ := h
  exact isBase_network x y z

/-- Addresses are taken apart and put together without loss:

* a text is an address exactly when it is a dotted quad, blanks around it aside;
* an address is that of its host number in the network of its base;
* two addresses are the same text exactly when their 32 bits are the same;
* a host number up to 255 has an address in every network, with that base and that host number. -/
theorem addresses_recompose (s t b : String) (n : Nat) :
    (isValid s = true ↔ IsQuad (Text.strip s)) ∧
      (isValid s = true → ∃ h, hostNumber s = .ok h ∧ host (base s) h = Text.strip s) ∧
      (isValid s = true → isValid t = true → (Text.strip s = Text.strip t ↔ bits? s = bits? t)) ∧
      (IsNetwork b → n ≤ 255 → isValid (host b n) = true ∧ base (host b n) = b ∧
        hostNumber (host b n) = .ok (n : Int)) := by
  refine ⟨isValid_iff_isQuad, host_base, strip_eq_iff, fun hb hn => ?_⟩
  have hbase := isBase_of_isNetwork hb
  exact ⟨(isValid_host hbase hn).2 hb, base_host hbase, hostNumber_host hbase (by omega)⟩

/-- An address with blanks around it and the same one without, and the last host of their network. -/
theorem addresses_recompose_padded :
    isValid " 10.0.0.7\n" = true ∧ isValid "10.0.0.7" = true ∧ IsNetwork "10.0.0" ∧
      IsQuad (Text.strip " 10.0.0.7\n") ∧
      (∃ h, hostNumber " 10.0.0.7\n" = .ok h ∧
        host (base " 10.0.0.7\n") h = Text.strip " 10.0.0.7\n") ∧
      bits? " 10.0.0.7\n" = bits? "10.0.0.7" ∧
      isValid (host "10.0.0" (255 : Nat)) = true ∧ base (host "10.0.0" (255 : Nat)) = "10.0.0" ∧
      hostNumber (host "10.0.0" (255 : Nat)) = .ok ((255 : Nat) : Int) := by
  have hpadded : isValid " 10.0.0.7\n" = true := by decide +kernel
  have hplain : isValid "10.0.0.7" = true := by decide +kernel
  have hnetwork : IsNetwork "10.0.0" := ⟨10, 0, 0, by decide, by decide, by decide, by decide +kernel⟩
  have hsame : Text.strip " 10.0.0.7\n" = Text.strip "10.0.0.7" := by decide +kernel
  obtain ⟨hquad, htogether, hbits, hhost⟩ :=
    addresses_recompose " 10.0.0.7\n" "10.0.0.7" "10.0.0" 255
  exact ⟨hpadded, hplain, hnetwork, hquad.1 hpadded, htogether hpadded,
    (hbits hpadded hplain).1 hsame, hhost hnetwork (by decide)⟩

end VirtNet.Address
