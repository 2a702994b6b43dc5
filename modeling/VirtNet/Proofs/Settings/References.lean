import VirtNet.Proofs.Value.Text
import VirtNet.Proofs.Value.Writable
import VirtNet.Settings.Document

/-!
# References to secrets in a document

A text in a document may refer to a secret. `substitute` puts the secrets in the place of all references
among the values of a document, at any depth; keys are no values and stay as they are, and so do the members
of sets. It can be done before or after a value that occurs in itself is unfolded (`opened_substitute`), and
before or after a value is looked up (`lookup_substituteEntries`).
-/

namespace VirtNet

namespace Secrets

/-- The secret that a text refers to; a text that is no reference to one that the vault gives stands for
itself. -/
def standFor (vault : Vault) (s : String) : String :=
  if refers s then (ask (some vault) s).toOption.getD s else s

end Secrets

open Secrets

namespace Value

mutual

/-- The references in a value, in order. -/
def references : Value → List String
  | text s => if refers s then [s] else []
  | list items => referencesIn items
  | pair a b => references a ++ references b
  | set members => referencesInKeys members
  | dict entries => referencesInEntries entries
  | numbered _ v => references v
  | _ => []

/-- The references in some values. -/
def referencesIn : List Value → List String
  | [] => []
  | v :: rest => references v ++ referencesIn rest

/-- The references within some keys, which are none themselves. -/
def referencesInKeys : List Value → List String
  | [] => []
  | k :: rest => (if k.isKey then [] else references k) ++ referencesInKeys rest

/-- The references in some entries. -/
def referencesInEntries : List (Value × Value) → List String
  | [] => []
  | (k, v) :: rest =>
    (if k.isKey then [] else references k) ++ references v ++ referencesInEntries rest

end

mutual

/-- A value with secrets in the place of references. -/
def substitute (vault : Vault) : Value → Value
  | text s => text (standFor vault s)
  | list items => list (substituteAll vault items)
  | pair a b => pair (substitute vault a) (substitute vault b)
  | set members => set (substituteKeys vault members)
  | dict entries => dict (substituteEntries vault entries)
  | numbered n v => numbered n (substitute vault v)
  | v => v

/-- The same for some values. -/
def substituteAll (vault : Vault) : List Value → List Value
  | [] => []
  | v :: rest => substitute vault v :: substituteAll vault rest

/-- The same within some keys, which stay as they are themselves. -/
def substituteKeys (vault : Vault) : List Value → List Value
  | [] => []
  | k :: rest => (if k.isKey then k else substitute vault k) :: substituteKeys vault rest

/-- The same for some entries. -/
def substituteEntries (vault : Vault) : List (Value × Value) → List (Value × Value)
  | [] => []
  | (k, v) :: rest =>
    (if k.isKey then k else substitute vault k, substitute vault v) :: substituteEntries vault rest

end

variable {vault : Vault} {v w : Value} {n : Nat}

theorem substituteAll_eq_map (vs : List Value) : substituteAll vault vs = vs.map (substitute vault) := by
  induction vs with
  | nil => rfl
  | cons v rest ih => rw [substituteAll, ih, List.map_cons]

theorem substituteKeys_eq_map (ks : List Value) :
    substituteKeys vault ks = ks.map fun k => if k.isKey then k else substitute vault k := by
  induction ks with
  | nil => rfl
  | cons k rest ih => rw [substituteKeys, ih, List.map_cons]

theorem substituteEntries_eq_map (es : List (Value × Value)) : substituteEntries vault es =
    es.map fun e => (if e.1.isKey then e.1 else substitute vault e.1, substitute vault e.2) := by
  induction es with
  | nil => rfl
  | cons e rest ih => rw [substituteEntries, ih, List.map_cons]

/-! ## Keys -/

/-- A value with secrets in it is the kind of value that it was. -/
theorem isKey_substitute (v : Value) : (v.substitute vault).isKey = v.isKey := by
  induction v using inductionOn with
  | numbered m v ih => exact ih
  | _ => rfl

/-- A value with another put into it is the kind of value that it was, if the other is a collection. -/
theorem isKey_replace (hw : w.isKey = false) (v : Value) : (replace n w v).isKey = v.isKey := by
  induction v using inductionOn with
  | numbered m v ih =>
    show (if m = n then v else replace n w v).isKey = v.isKey
    split
    · rfl
    · exact ih
  | again m =>
    show (if m = n then w else again m).isKey = false
    split
    · exact hw
    · rfl
  | _ => rfl

/-- Nothing can be put into a key. -/
theorem replace_of_isKey (h : v.isKey = true) : replace n w v = v := by
  induction v using inductionOn with
  | numbered m v ih =>
    rw [replace, ih h, ite_self]
  | list | pair | set | dict | again => cases h
  | _ => rfl

/-- A collection is not the same key as a text. -/
theorem sameKey_of_not_isKey (h : v.isKey = false) (key : String) : v.sameKey (.text key) = false := by
  have hbare : (Value.text key).bare = .text key := rfl
  unfold isKey at h
  unfold sameKey
  rw [hbare]
  cases hv : v.bare with
  | list | pair | set | dict | again => rfl
  | _ => simp [hv] at h

/-! ## Looking up and unfolding -/

/-- Looking up and substituting can be done in either order. -/
theorem lookup_substituteEntries (key : String) (es : List (Value × Value)) :
    lookup key (substituteEntries vault es) = (lookup key es).map (substitute vault) := by
  induction es with
  | nil => rfl
  | cons e rest ih =>
    obtain ⟨k, v⟩ := e
    have hkey : (if k.isKey then k else substitute vault k).sameKey (.text key) =
        k.sameKey (.text key) := by
      split
      · rfl
      · next hk =>
        have hk' : k.isKey = false := by simpa using hk
        rw [sameKey_of_not_isKey hk', sameKey_of_not_isKey ((isKey_substitute k).trans hk')]
    rw [substituteEntries, lookup, lookup, hkey, ih]
    split <;> rfl

/-- Putting a collection where a number refers to it and substituting can be done in either order. -/
theorem substitute_replace (hw : w.isKey = false) (v : Value) :
    (replace n w v).substitute vault = replace n (w.substitute vault) (v.substitute vault) := by
  have hw' : (w.substitute vault).isKey = false := (isKey_substitute w).trans hw
  -- within a key both can be done where it is a collection, and neither where it is not
  have hkeys : ∀ k : Value,
      (replace n w k).substitute vault = replace n (w.substitute vault) (k.substitute vault) →
      (if (replace n w k).isKey then replace n w k else (replace n w k).substitute vault) =
        replace n (w.substitute vault) (if k.isKey then k else k.substitute vault) := by
    intro k ih
    rw [isKey_replace hw]
    split
    · next hk => rw [replace_of_isKey hk, replace_of_isKey hk]
    · exact ih
  induction v using inductionOn with
  | list items ih =>
    rw [replace, substitute, substitute, replace, substituteAll_eq_map, substituteAll_eq_map,
      replaceAll_eq_map, replaceAll_eq_map, List.map_map, List.map_map]
    exact congrArg list (List.map_congr_left ih)
  | pair a b iha ihb => rw [replace, substitute, substitute, replace, iha, ihb]
  | set members ih =>
    rw [replace, substitute, substitute, replace, substituteKeys_eq_map, substituteKeys_eq_map,
      replaceAll_eq_map, replaceAll_eq_map, List.map_map, List.map_map]
    exact congrArg set (List.map_congr_left fun k hk => hkeys k (ih k hk))
  | dict es ih =>
    rw [replace, substitute, substitute, replace, substituteEntries_eq_map, substituteEntries_eq_map,
      replaceEntries_eq_map, replaceEntries_eq_map, List.map_map, List.map_map]
    exact congrArg dict (List.map_congr_left fun e he => Prod.ext (hkeys e.1 (ih e he).1) (ih e he).2)
  | numbered m v ih =>
    rw [replace, substitute, substitute, replace]
    split
    · rfl
    · rw [ih]
  | again m =>
    show (if m = n then w else again m).substitute vault =
      if m = n then w.substitute vault else again m
    split <;> rfl
  | _ => rfl

/-- Unfolding a value that occurs in itself and substituting can be done in either order. -/
theorem opened_substitute (v : Value) : (v.substitute vault).opened = v.opened.substitute vault := by
  cases v with
  | numbered n v =>
    rw [substitute, opened, opened]
    cases hkey : v.isKey with
    | true =>
      rw [replace_of_isKey hkey, replace_of_isKey ((isKey_substitute v).trans hkey)]
    | false =>
      have hcollection : (numbered n v).isKey = false := hkey
      rw [substitute_replace hcollection, substitute]
  | _ => rfl

/-- A mapping counts as true whatever is put in the place of references. -/
theorem truthy_substitute_of_opened {es : List (Value × Value)} (h : v.opened = .dict es) :
    (v.substitute vault).truthy = v.truthy := by
  have hempty : ∀ es, (substituteEntries vault es).isEmpty = es.isEmpty := by
    intro es
    cases es <;> rfl
  cases v with
  | dict es => exact congrArg (!·) (hempty es)
  | numbered n v =>
    cases v with
    | dict es => exact congrArg (!·) (hempty es)
    | again m =>
      change (if m = n then numbered n (again m) else again m) = dict es at h
      split at h <;> cases h
    | _ => cases h
  | _ => cases h

/-! ## Values without references -/

theorem referencesIn_eq_flatMap (vs : List Value) : referencesIn vs = vs.flatMap references := by
  induction vs with
  | nil => rfl
  | cons v rest ih => rw [referencesIn, ih, List.flatMap_cons]

theorem referencesInKeys_eq_flatMap (ks : List Value) :
    referencesInKeys ks = ks.flatMap fun k => if k.isKey then [] else references k := by
  induction ks with
  | nil => rfl
  | cons k rest ih => rw [referencesInKeys, ih, List.flatMap_cons]

theorem referencesInEntries_eq_flatMap (es : List (Value × Value)) : referencesInEntries es =
    es.flatMap fun e => (if e.1.isKey then [] else references e.1) ++ references e.2 := by
  induction es with
  | nil => rfl
  | cons e rest ih => rw [referencesInEntries, ih, List.flatMap_cons]

/-- A value without references stays the same. -/
theorem substitute_eq_self (h : v.references = []) : v.substitute vault = v := by
  have hkeys : ∀ k : Value, (k.references = [] → k.substitute vault = k) →
      (if k.isKey then [] else k.references) = [] → (if k.isKey then k else k.substitute vault) = k := by
    intro k ih hk
    split
    · rfl
    · next hkey =>
      rw [if_neg hkey] at hk
      exact ih hk
  induction v using inductionOn with
  | text s =>
    have hs : ¬ refers s = true := by
      intro hs
      rw [references, if_pos hs] at h
      cases h
    rw [substitute, standFor, if_neg hs]
  | list items ih =>
    rw [references, referencesIn_eq_flatMap, List.flatMap_eq_nil_iff] at h
    rw [substitute, substituteAll_eq_map, List.map_congr_left fun v hv => ih v hv (h v hv), List.map_id']
  | pair a b iha ihb =>
    rw [references, List.append_eq_nil_iff] at h
    rw [substitute, iha h.1, ihb h.2]
  | set members ih =>
    rw [references, referencesInKeys_eq_flatMap, List.flatMap_eq_nil_iff] at h
    rw [substitute, substituteKeys_eq_map,
      List.map_congr_left fun k hk => hkeys k (ih k hk) (h k hk), List.map_id']
  | dict es ih =>
    rw [references, referencesInEntries_eq_flatMap, List.flatMap_eq_nil_iff] at h
    have hentry : ∀ e ∈ es,
        (if e.1.isKey then e.1 else e.1.substitute vault, e.2.substitute vault) = e := by
      intro e he
      obtain ⟨hkey, hvalue⟩ := List.append_eq_nil_iff.1 (h e he)
      exact Prod.ext (hkeys e.1 (ih e he).1 hkey) ((ih e he).2 hvalue)
    rw [substitute, substituteEntries_eq_map, List.map_congr_left hentry, List.map_id']
  | numbered n v ih => rw [substitute, ih h]
  | _ => rfl

/-- A text that refers to a secret starts with a letter and has a stroke in it. -/
theorem of_refers {s : String} (h : refers s = true) : s.toList.head? = some 'o' ∧ '/' ∈ s.toList := by
  obtain ⟨rest, hrest⟩ := List.isPrefixOf_iff_prefix.1 h
  rw [← hrest]
  exact ⟨rfl, List.mem_append_left _ (by decide)⟩

theorem refers_of_head? {s : String} (h : s.toList.head? ≠ some 'o') : refers s = false := by
  cases hs : refers s with
  | false => rfl
  | true => exact absurd (of_refers hs).1 h

theorem refers_append {s t : String} {c : Char} (hs : s.toList.head? = some c) (hc : c ≠ 'o') :
    refers (s ++ t) = false := by
  refine refers_of_head? ?_
  rw [String.toList_append, List.head?_append, hs]
  exact fun h => hc (Option.some.inj h)

/-! ## Values that are shown with their kinds -/

/-- Dates and moments are shown with the name of their kind before them. -/
theorem refers_dateLiteral (d : Date) : refers d.literal = false := by
  have hword : (toString "datetime.date(").toList.head? = some 'd' := by decide
  refine refers_of_head? ?_
  unfold Date.literal
  simp only [String.toList_append, List.head?_append, hword, Option.some_or]
  decide

theorem refers_momentLiteral (m : Moment) : refers m.literal = false := by
  have hword : (toString "datetime.datetime(").toList.head? = some 'd' := by decide
  refine refers_of_head? ?_
  unfold Moment.literal
  simp only [String.toList_append, List.head?_append, hword, Option.some_or]
  decide

theorem head?_ellipsis (v : Value) : v.ellipsis.toList.head? ≠ some 'o' := by
  unfold ellipsis
  split <;> decide

/-- What is shown for a value in itself is no reference if nothing is that can be shown so. -/
theorem refers_of_lookup {around : Around} {n : Nat} {dots : String}
    (haround : ∀ p ∈ around, p.2.toList.head? ≠ some 'o') (h : around.lookup n = some dots) :
    refers dots = false := by
  obtain ⟨l, r, rfl, -⟩ := List.lookup_eq_some_iff.1 h
  exact refers_of_head? (haround (n, dots) (by simp))

/-- A value that is shown with its kind is not shown as a reference, whatever the values around it. -/
theorem refers_literalIn {around : Around} (haround : ∀ p ∈ around, p.2.toList.head? ≠ some 'o') :
    refers (v.literalIn around) = false := by
  induction v using inductionOn generalizing around with
  | null =>
    rw [literalIn]
    decide
  | bool b =>
    rw [literalIn]
    cases b <;> decide
  | int n =>
    rw [literalIn]
    refine refers_of_head? fun h => ?_
    exact not_mem_int rfl (by decide) n (List.mem_of_mem_head? h)
  | float x =>
    rw [literalIn]
    refine Bool.eq_false_iff.2 fun hx => ?_
    exact Binary64.not_mem_toText (by decide) (by decide) x (of_refers hx).2
  | text s =>
    have hquote : Text.quoteFor s.toList ≠ 'o' := by
      unfold Text.quoteFor
      split <;> decide
    refine refers_of_head? ?_
    rw [literalIn, String.toList_ofList, Text.quoted]
    exact fun h => hquote (Option.some.inj h)
  | bytes bs =>
    refine refers_of_head? ?_
    rw [literalIn, String.toList_ofList, Text.quotedBytes]
    exact fun h => absurd (Option.some.inj h) (by decide)
  | date d =>
    rw [literalIn]
    exact refers_dateLiteral d
  | moment m =>
    rw [literalIn]
    exact refers_momentLiteral m
  | list items =>
    rw [literalIn, String.append_assoc]
    exact refers_append (s := "[") (c := '[') (by decide) (by decide)
  | pair a b =>
    rw [literalIn, String.append_assoc, String.append_assoc, String.append_assoc]
    exact refers_append (s := "(") (c := '(') (by decide) (by decide)
  | set members =>
    cases members with
    | nil =>
      rw [literalIn]
      decide
    | cons m ms =>
      rw [literalIn, String.append_assoc]
      exact refers_append (s := "\x7b") (c := '\x7b') (by decide) (by decide)
  | dict entries =>
    rw [literalIn, String.append_assoc]
    exact refers_append (s := "\x7b") (c := '\x7b') (by decide) (by decide)
  | numbered n v ih =>
    rw [literalIn]
    split
    · next dots h => exact refers_of_lookup haround h
    · exact ih (List.forall_mem_cons.2 ⟨head?_ellipsis v, haround⟩)
  | again n =>
    rw [literalIn]
    cases h : around.lookup n with
    | none => decide
    | some dots => exact refers_of_lookup haround h

/-- The number that a value carries does not count. -/
theorem references_bare (v : Value) : v.bare.references = v.references := by
  induction v using inductionOn with
  | numbered n v ih => exact ih
  | _ => rfl

/-- The text of a value without references is none. -/
theorem refers_toText (h : v.references = []) : refers v.toText = false := by
  have hbare : v.bare.references = [] := (references_bare v).trans h
  have hliteral : refers v.literal = false := refers_literalIn (List.forall_mem_nil _)
  unfold toText
  cases hv : v.bare with
  | text s =>
    rw [hv, references] at hbare
    refine Bool.eq_false_iff.2 fun hs => ?_
    rw [if_pos hs] at hbare
    cases hbare
  | date d =>
    refine refers_of_head? fun hd => ?_
    exact Date.not_mem_toText rfl (by decide) d (List.mem_of_mem_head? hd)
  | moment m =>
    refine refers_of_head? fun hm => ?_
    exact Moment.not_mem_textWith rfl (by decide) (by decide) m (List.mem_of_mem_head? hm)
  | _ => exact hliteral

end Value

end VirtNet
