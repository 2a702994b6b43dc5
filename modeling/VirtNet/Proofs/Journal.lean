import Mathlib.Data.List.Forall2
import VirtNet.Journal

/-!
# Outcomes of computations that keep a journal

The notes of a computation never influence its outcome, so a proof about an outcome forgets them: the
outcome of a loop is the loop of the outcomes (`outcome_mapM`). `bind_eq_ok` opens a computation that
succeeded step by step, `mapM_eq_ok` a loop that succeeded at each element, and `foldlM_keeps` says that
a loop keeps what its turns keep. `bind_eq_error` and its kin say where a computation that failed did so,
and `Meets` bounds how a computation may end, step by step.
-/

namespace VirtNet

variable {ε ε' α β : Type}

namespace Outcome

@[simp]
theorem ok_bind (a : α) (f : α → Except ε β) : (.ok a : Except ε α) >>= f = f a := rfl

@[simp]
theorem error_bind (e : ε) (f : α → Except ε β) : (.error e : Except ε α) >>= f = .error e := rfl

@[simp]
theorem mapError_ok (f : ε → ε') (a : α) : (.ok a : Except ε α).mapError f = .ok a := rfl

@[simp]
theorem mapError_error (f : ε → ε') (e : ε) :
    (.error e : Except ε α).mapError f = .error (f e) := rfl

/-- A computation of two steps succeeds when its first step and then its second do. -/
theorem bind_eq_ok {x : Except ε α} {f : α → Except ε β} {b : β} :
    x >>= f = .ok b ↔ ∃ a, x = .ok a ∧ f a = .ok b := by
  constructor
  · intro h
    cases x with
    | error e => cases h
    | ok a => exact ⟨a, rfl, h⟩
  · rintro ⟨a, rfl, h⟩
    exact h

/-- A computation of two steps fails in its first step or, that one succeeding, in its second. -/
theorem bind_eq_error {x : Except ε α} {f : α → Except ε β} {e : ε} :
    x >>= f = .error e ↔ x = .error e ∨ ∃ a, x = .ok a ∧ f a = .error e := by
  cases x <;> simp

/-- A computation of whose result something is made succeeds and fails as it would. -/
theorem map_eq_ok {x : Except ε α} {f : α → β} {b : β} : x.map f = .ok b ↔ ∃ a, x = .ok a ∧ f a = b := by
  cases x <;> simp [Except.map]

theorem map_eq_error {x : Except ε α} {f : α → β} {e : ε} : x.map f = .error e ↔ x = .error e := by
  cases x <;> simp [Except.map]

/-- A computation whose result is there succeeded. -/
theorem exists_of_isSome_toOption {x : Except ε α} (h : x.toOption.isSome = true) :
    ∃ a, x = .ok a := by
  cases x with
  | error e => cases h
  | ok a => exact ⟨a, rfl⟩

/-- A computation whose result was found to satisfy `P` succeeded with such a result. -/
theorem exists_of_any_toOption {x : Except ε α} {P : α → Prop} [DecidablePred P]
    (h : x.toOption.any (fun a => P a) = true) : ∃ a, x = .ok a ∧ P a := by
  cases x with
  | error e => cases h
  | ok a => exact ⟨a, rfl, of_decide_eq_true h⟩

/-- Renaming failures changes no success. -/
theorem mapError_eq_ok {x : Except ε α} {f : ε → ε'} {a : α} :
    x.mapError f = .ok a ↔ x = .ok a := by
  cases x <;> simp

/-- A failure that was renamed is another one under a new name. -/
theorem mapError_eq_error {x : Except ε α} {f : ε → ε'} {e : ε'} :
    x.mapError f = .error e ↔ ∃ e', x = .error e' ∧ f e' = e := by
  cases x <;> simp

/-- A loop that succeeds succeeds at each element. -/
theorem mapM_eq_ok {f : α → Except ε β} {as : List α} {bs : List β} :
    as.mapM f = .ok bs ↔ List.Forall₂ (fun a b => f a = .ok b) as bs := by
  induction as generalizing bs with
  | nil =>
    rw [List.mapM_nil, List.forall₂_nil_left_iff]
    constructor
    · rintro ⟨⟩
      rfl
    · rintro rfl
      rfl
  | cons a as ih =>
    simp only [List.mapM_cons, bind_eq_ok, ih, List.forall₂_cons_left_iff]
    constructor
    · rintro ⟨b, hb, bs', hbs, ⟨⟩⟩
      exact ⟨b, bs', hb, hbs, rfl⟩
    · rintro ⟨b, bs', hb, hbs, rfl⟩
      exact ⟨b, hb, bs', hbs, rfl⟩

/-- A loop succeeds that succeeds at each element. -/
theorem exists_mapM_eq_ok {f : α → Except ε β} {as : List α} (h : ∀ a ∈ as, ∃ b, f a = .ok b) :
    ∃ bs, as.mapM f = .ok bs := by
  induction as with
  | nil => exact ⟨[], rfl⟩
  | cons a as ih =>
    obtain ⟨b, hb⟩ := h a List.mem_cons_self
    obtain ⟨bs, hbs⟩ := ih fun a' ha' => h a' (List.mem_cons_of_mem _ ha')
    refine ⟨b :: bs, ?_⟩
    rw [List.mapM_cons, hb, ok_bind, hbs, ok_bind]
    rfl

/-- A loop that fails fails at an element. -/
theorem exists_of_mapM_eq_error {f : α → Except ε β} {as : List α} {e : ε}
    (h : as.mapM f = .error e) : ∃ a ∈ as, f a = .error e := by
  induction as with
  | nil => cases h
  | cons a as ih =>
    rw [List.mapM_cons, bind_eq_error] at h
    rcases h with ha | ⟨b, -, h⟩
    · exact ⟨a, List.mem_cons_self, ha⟩
    · rw [bind_eq_error] at h
      rcases h with has | ⟨bs, -, hpure⟩
      · obtain ⟨a', ha', hfails⟩ := ih has
        exact ⟨a', List.mem_cons_of_mem _ ha', hfails⟩
      · cases hpure

/-- A loop with a state that fails fails at an element, in the state that was reached there. -/
theorem exists_of_foldlM_eq_error {f : β → α → Except ε β} {as : List α} {b : β} {e : ε}
    (h : as.foldlM f b = .error e) : ∃ b' a, a ∈ as ∧ f b' a = .error e := by
  induction as generalizing b with
  | nil => cases h
  | cons a as ih =>
    rw [List.foldlM_cons, bind_eq_error] at h
    rcases h with ha | ⟨b', -, hrest⟩
    · exact ⟨b, a, List.mem_cons_self, ha⟩
    · obtain ⟨b'', a', ha', hfails⟩ := ih hrest
      exact ⟨b'', a', List.mem_cons_of_mem _ ha', hfails⟩

/-- A computation of two steps, its result apart, is a check for the first step and what remains of the
second. -/
theorem bind_map_eq {x : Except ε α} {f : α → Except ε β} {check rest : Except ε Unit}
    (hx : x.map (fun _ => ()) = check) (hrest : ∀ a, x = .ok a → (f a).map (fun _ => ()) = rest) :
    (x >>= f).map (fun _ => ()) = check >>= fun _ => rest := by
  subst hx
  cases x with
  | error e => rfl
  | ok a => exact hrest a rfl

/-- Two computations of two steps whose first steps give what corresponds, and whose second steps differ by
`g` from there, differ by `g`. -/
theorem bind_eq_map_bind {α' β' : Type} {x : Except ε α} {x' : Except ε α'} {k : α → α'}
    {f : α → Except ε β} {f' : α' → Except ε β'} {g : β → β'} (hx : x' = x.map k)
    (h : ∀ a, x = .ok a → f' (k a) = (f a).map g) : x' >>= f' = (x >>= f).map g := by
  subst hx
  cases x with
  | error e => rfl
  | ok a => exact h a rfl

/-- The same where the first steps are one. -/
theorem bind_eq_map_bind_of_eq {β' : Type} {x x' : Except ε α} {f : α → Except ε β}
    {f' : α → Except ε β'} {g : β → β'} (hx : x' = x) (h : ∀ a, x = .ok a → f' a = (f a).map g) :
    x' >>= f' = (x >>= f).map g := by
  refine bind_eq_map_bind (k := fun a => a) ?_ h
  rw [hx]
  cases x <;> rfl

/-- A loop without results succeeds when it does at each element. -/
theorem forM_eq_ok {f : α → Except ε Unit} {as : List α} :
    as.forM f = .ok () ↔ ∀ a ∈ as, f a = .ok () := by
  induction as with
  | nil => exact ⟨fun _ => List.forall_mem_nil _, fun _ => rfl⟩
  | cons a as ih =>
    rw [show (a :: as).forM f = f a >>= fun _ => as.forM f from rfl, bind_eq_ok, List.forall_mem_cons,
      ← ih]
    constructor
    · rintro ⟨⟨⟩, ha, has⟩
      exact ⟨ha, has⟩
    · rintro ⟨ha, has⟩
      exact ⟨(), ha, has⟩

/-- A loop without results fails where, after elements at which it succeeds, one fails. -/
theorem forM_eq_error {f : α → Except ε Unit} {as : List α} {e : ε} :
    as.forM f = .error e ↔ ∃ before a after, as = before ++ a :: after ∧
      (∀ b ∈ before, f b = .ok ()) ∧ f a = .error e := by
  induction as with
  | nil =>
    constructor
    · intro h
      cases h
    · rintro ⟨before, a, after, h, -⟩
      cases before <;> cases h
  | cons x as ih =>
    rw [show (x :: as).forM f = f x >>= fun _ => as.forM f from rfl, bind_eq_error]
    constructor
    · rintro (hx | ⟨⟨⟩, hx, has⟩)
      · exact ⟨[], x, as, rfl, List.forall_mem_nil _, hx⟩
      · obtain ⟨before, a, after, rfl, hbefore, ha⟩ := ih.1 has
        exact ⟨x :: before, a, after, rfl, List.forall_mem_cons.2 ⟨hx, hbefore⟩, ha⟩
    · rintro ⟨before, a, after, h, hbefore, ha⟩
      cases before with
      | nil =>
        obtain ⟨rfl, rfl⟩ := List.cons.inj h
        exact .inl ha
      | cons b before =>
        obtain ⟨rfl, rfl⟩ := List.cons.inj h
        rw [List.forall_mem_cons] at hbefore
        exact .inr ⟨(), hbefore.1, ih.2 ⟨before, a, after, rfl, hbefore.2, ha⟩⟩

/-- A search finds what is looked for where, after elements that are not, one is. -/
theorem findM?_eq_ok {f : α → Except ε Bool} {as : List α} {a : α} :
    as.findM? f = .ok (some a) ↔ ∃ before after, as = before ++ a :: after ∧
      (∀ b ∈ before, f b = .ok false) ∧ f a = .ok true := by
  induction as with
  | nil =>
    constructor
    · intro h
      cases h
    · rintro ⟨before, after, h, -⟩
      cases before <;> cases h
  | cons x as ih =>
    rw [List.findM?, bind_eq_ok]
    constructor
    · rintro ⟨found, hx, has⟩
      cases found with
      | true =>
        cases has
        exact ⟨[], as, rfl, List.forall_mem_nil _, hx⟩
      | false =>
        obtain ⟨before, after, rfl, hbefore, ha⟩ := ih.1 has
        exact ⟨x :: before, after, rfl, List.forall_mem_cons.2 ⟨hx, hbefore⟩, ha⟩
    · rintro ⟨before, after, h, hbefore, ha⟩
      cases before with
      | nil =>
        obtain ⟨rfl, rfl⟩ := List.cons.inj h
        exact ⟨true, ha, rfl⟩
      | cons b before =>
        obtain ⟨rfl, rfl⟩ := List.cons.inj h
        rw [List.forall_mem_cons] at hbefore
        exact ⟨false, hbefore.1, ih.2 ⟨before, after, rfl, hbefore.2, ha⟩⟩

/-- What a filter has kept so far comes, in reverse, after what it keeps of the rest. -/
theorem filterAuxM_eq_ok {f : α → Except ε Bool} {p : α → Bool} {as : List α}
    (h : ∀ a ∈ as, f a = .ok (p a)) (kept : List α) :
    as.filterAuxM f kept = .ok ((as.filter p).reverse ++ kept) := by
  induction as generalizing kept with
  | nil => rfl
  | cons a as ih =>
    rw [List.forall_mem_cons] at h
    rw [List.filterAuxM, h.1, ok_bind, ih h.2]
    cases hp : p a <;> simp [hp]

/-- A filter whose test succeeds at each element keeps those that pass it. -/
theorem filterM_eq_ok {f : α → Except ε Bool} {p : α → Bool} {as : List α}
    (h : ∀ a ∈ as, f a = .ok (p a)) : as.filterM f = .ok (as.filter p) := by
  rw [List.filterM, filterAuxM_eq_ok h, ok_bind, List.append_nil, List.reverse_reverse]
  rfl

theorem forall_of_filterAuxM_eq_ok {f : α → Except ε Bool} {as kept bs : List α}
    (h : as.filterAuxM f kept = .ok bs) : ∀ a ∈ as, ∃ b, f a = .ok b := by
  induction as generalizing kept with
  | nil => exact List.forall_mem_nil _
  | cons a as ih =>
    rw [List.filterAuxM, bind_eq_ok] at h
    obtain ⟨b, hb, h⟩ := h
    exact List.forall_mem_cons.2 ⟨⟨b, hb⟩, ih h⟩

/-- A filter succeeds exactly when its test does at each element. -/
theorem exists_filterM_eq_ok {f : α → Except ε Bool} {as : List α} :
    (∃ bs, as.filterM f = .ok bs) ↔ ∀ a ∈ as, ∃ b, f a = .ok b := by
  constructor
  · rintro ⟨bs, h⟩
    rw [List.filterM, bind_eq_ok] at h
    obtain ⟨_, h, -⟩ := h
    exact forall_of_filterAuxM_eq_ok h
  · intro h
    refine ⟨as.filter fun a => (f a).toOption == some true, filterM_eq_ok fun a ha => ?_⟩
    obtain ⟨b, hb⟩ := h a ha
    rw [hb]
    cases b <;> rfl

/-- Of two lists that are related in order, each element of the one has a partner in the other. -/
theorem exists_of_forall₂ {R : α → β → Prop} {as : List α} {bs : List β} (h : List.Forall₂ R as bs)
    {a : α} (ha : a ∈ as) : ∃ b ∈ bs, R a b := by
  induction h with
  | nil => cases ha
  | cons hab _ ih =>
    rcases List.mem_cons.1 ha with rfl | hrest
    · exact ⟨_, List.mem_cons_self, hab⟩
    · obtain ⟨b, hb, hR⟩ := ih hrest
      exact ⟨b, List.mem_cons_of_mem _ hb, hR⟩

/-- What a loop that succeeds finds for an element is among its results. -/
theorem mem_of_mapM_eq_ok {f : α → Except ε β} {as : List α} {bs : List β} (h : as.mapM f = .ok bs)
    {a : α} (ha : a ∈ as) : ∃ b ∈ bs, f a = .ok b :=
  exists_of_forall₂ (mapM_eq_ok.1 h) ha

/-- Each result of a loop that succeeds was found for an element. -/
theorem exists_of_mem_mapM {f : α → Except ε β} {as : List α} {bs : List β} (h : as.mapM f = .ok bs)
    {b : β} (hb : b ∈ bs) : ∃ a ∈ as, f a = .ok b :=
  exists_of_forall₂ (mapM_eq_ok.1 h).flip hb

/-- Of two lists that are related in order, what each partner tells, the lists tell. -/
theorem map_of_forall₂ {γ : Type} {R : α → β → Prop} {g : β → γ} {k : α → γ} {as : List α} {bs : List β}
    (h : List.Forall₂ R as bs) (step : ∀ a b, R a b → g b = k a) : bs.map g = as.map k := by
  induction h with
  | nil => rfl
  | cons hab _ ih => rw [List.map_cons, List.map_cons, step _ _ hab, ih]

/-- What each result of a loop tells about its element, the results tell about the elements. -/
theorem map_of_mapM_eq_ok {γ : Type} {f : α → Except ε β} {g : β → γ} {k : α → γ} {as : List α}
    {bs : List β} (h : as.mapM f = .ok bs) (step : ∀ a b, f a = .ok b → g b = k a) :
    bs.map g = as.map k :=
  map_of_forall₂ (mapM_eq_ok.1 h) step

/-- A loop over options finds all results or stops at a missing one. -/
theorem isSome_mapM_iff {f : α → Option β} {as : List α} :
    (as.mapM f).isSome = true ↔ ∀ a ∈ as, (f a).isSome = true := by
  induction as with
  | nil => simp
  | cons a as ih =>
    rw [List.mapM_cons, List.forall_mem_cons, ← ih]
    cases f a <;> cases as.mapM f <;> simp

/-- What each result of a loop over options tells about its element, the results tell about the
elements. -/
theorem map_of_mapM_eq_some {γ : Type} {f : α → Option β} {g : β → γ} {k : α → γ} {as : List α}
    {bs : List β} (h : as.mapM f = some bs) (step : ∀ a b, f a = some b → g b = k a) :
    bs.map g = as.map k := by
  induction as generalizing bs with
  | nil =>
    cases h
    rfl
  | cons a as ih =>
    rw [List.mapM_cons] at h
    cases hb : f a with
    | none => simp [hb] at h
    | some b =>
      cases hbs : as.mapM f with
      | none => simp [hb, hbs] at h
      | some bs' =>
        have hcons : b :: bs' = bs := by simpa [hb, hbs] using h
        rw [← hcons, List.map_cons, List.map_cons, step a b hb, ih hbs]

/-- What each turn of a loop keeps the loop keeps. The property speaks of a value that goes along with
the turns, as of the elements gone through so far. -/
theorem foldlM_keeps_along {γ : Type} {f : β → α → Except ε β} {g : γ → α → γ} {P : γ → β → Prop}
    {as : List α} (turn : ∀ c b a b', a ∈ as → P c b → f b a = .ok b' → P (g c a) b')
    {c : γ} {b b' : β} (h : P c b) (hok : as.foldlM f b = .ok b') : P (as.foldl g c) b' := by
  induction as generalizing b c with
  | nil =>
    cases hok
    exact h
  | cons a as ih =>
    rw [List.foldlM_cons, bind_eq_ok] at hok
    obtain ⟨m, hm, hrest⟩ := hok
    have hmid : P (g c a) m := turn c b a m List.mem_cons_self h hm
    exact ih (fun c b a b' ha => turn c b a b' (List.mem_cons_of_mem _ ha)) hmid hrest

/-- What each turn of a loop keeps the loop keeps. -/
theorem foldlM_keeps {f : β → α → Except ε β} {P : β → Prop} {as : List α}
    (turn : ∀ b a b', a ∈ as → P b → f b a = .ok b' → P b') {b b' : β} (h : P b)
    (hok : as.foldlM f b = .ok b') : P b' :=
  @foldlM_keeps_along ε α β Unit f (fun _ _ => ()) (fun _ => P) as (fun _ => turn) () b b' h hok

/-- What each turn of a loop keeps of the elements gone through so far, the loop keeps of all. -/
theorem foldlM_keeps_done {f : β → α → Except ε β} {P : List α → β → Prop} {as : List α}
    (turn : ∀ done b a b', a ∈ as → P done b → f b a = .ok b' → P (done ++ [a]) b') {b b' : β}
    (h : P [] b) (hok : as.foldlM f b = .ok b') : P as b' := by
  have hall : as.foldl (fun done a => done ++ [a]) [] = as := by
    rw [List.foldl_append_eq_append, List.nil_append, ← List.flatMap_def, List.flatMap_singleton']
  have hrun := foldlM_keeps_along turn h hok
  rwa [hall] at hrun

/-! ## What a run may end with -/

/-- A computation fails only in a way that `E` allows, and succeeds only with a result that `R` allows. -/
inductive Meets (E : ε → Prop) (R : α → Prop) : Except ε α → Prop
  | ok {a : α} (h : R a) : Meets E R (.ok a)
  | error {e : ε} (h : E e) : Meets E R (.error e)

section Meets

variable {E : ε → Prop} {R : α → Prop} {S : β → Prop} {x : Except ε α}

theorem Meets.pure {a : α} (h : R a) : Meets E R (Pure.pure a) := .ok h

/-- How a computation fails is allowed. -/
theorem Meets.of_error (h : Meets E R x) {e : ε} (hx : x = .error e) : E e := by
  cases h with
  | ok _ => cases hx
  | error he =>
    obtain rfl := Except.error.inj hx
    exact he

theorem Meets.ite {c : Prop} [Decidable c] {y : Except ε α} (hx : Meets E R x) (hy : Meets E R y) :
    Meets E R (if c then x else y) := by
  split
  · exact hx
  · exact hy

/-- Two steps end as the second may, from each result that the first may have. -/
theorem Meets.bind {f : α → Except ε β} (h : Meets E R x) (hf : ∀ a, R a → Meets E S (f a)) :
    Meets E S (x >>= f) := by
  cases h with
  | ok ha => exact hf _ ha
  | error he => exact .error he

theorem Meets.map {f : α → β} (h : Meets E R x) (hf : ∀ a, R a → S (f a)) : Meets E S (x.map f) := by
  cases h with
  | ok ha => exact .ok (hf _ ha)
  | error he => exact .error he

theorem Meets.mapM {f : α → Except ε β} {as : List α} (h : ∀ a ∈ as, Meets E S (f a)) :
    Meets E (fun bs => ∀ b ∈ bs, S b) (as.mapM f) := by
  induction as with
  | nil => exact .ok (List.forall_mem_nil S)
  | cons a as ih =>
    rw [List.forall_mem_cons] at h
    rw [List.mapM_cons]
    exact h.1.bind fun b hb => (ih h.2).bind fun bs hbs => .ok (List.forall_mem_cons.2 ⟨hb, hbs⟩)

/-- A loop ends as its turns may. -/
theorem Meets.foldlM {γ : Type} {f : α → γ → Except ε α} {cs : List γ}
    (turn : ∀ a c, c ∈ cs → R a → Meets E R (f a c)) {a : α} (h : R a) : Meets E R (cs.foldlM f a) := by
  induction cs generalizing a with
  | nil => exact .ok h
  | cons c cs ih =>
    rw [List.foldlM_cons]
    exact (turn a c List.mem_cons_self h).bind fun a' h' =>
      ih (fun a c hc => turn a c (List.mem_cons_of_mem _ hc)) h'

end Meets

/-! ## Two runs side by side -/

/-- Two computations agree when both fail with one error, or both succeed with results that `R` relates. -/
inductive Agree (R : α → β → Prop) : Except ε α → Except ε β → Prop
  | ok {a : α} {b : β} (h : R a b) : Agree R (.ok a) (.ok b)
  | error (e : ε) : Agree R (.error e) (.error e)

variable {α' β' : Type} {R : α → α' → Prop} {S : β → β' → Prop}

/-- What `R` implies follows from an agreement by `R`. -/
theorem Agree.imp {S : α → α' → Prop} {x : Except ε α} {y : Except ε α'} (hxy : Agree R x y)
    (h : ∀ a b, R a b → S a b) : Agree S x y := by
  cases hxy with
  | ok hab => exact .ok (h _ _ hab)
  | error e => exact .error e

/-- What agrees with a success is one. -/
theorem Agree.exists_ok {x : Except ε α} {y : Except ε α'} (hxy : Agree R x y) {a : α} (hx : x = .ok a) :
    ∃ b, y = .ok b ∧ R a b := by
  cases hxy with
  | ok hab =>
    obtain rfl := Except.ok.inj hx
    exact ⟨_, rfl, hab⟩
  | error e => cases hx

/-- A computation agrees with itself. -/
theorem Agree.refl {R : α → α → Prop} (h : ∀ a, R a a) (x : Except ε α) : Agree R x x := by
  cases x with
  | ok a => exact .ok (h a)
  | error e => exact .error e

/-- Two computations of two steps agree whose first steps are one and whose second steps agree from there. -/
theorem Agree.bind_same {x : Except ε α} {f : α → Except ε β} {g : α → Except ε β'}
    (h : ∀ a, Agree S (f a) (g a)) : Agree S (x >>= f) (x >>= g) := by
  cases x with
  | ok a => exact h a
  | error e => exact .error e

/-- Two computations of two steps agree when their first steps do and their second steps do from there. -/
theorem Agree.bind {x : Except ε α} {y : Except ε α'} {f : α → Except ε β} {g : α' → Except ε β'}
    (hxy : Agree R x y) (h : ∀ a b, R a b → Agree S (f a) (g b)) : Agree S (x >>= f) (y >>= g) := by
  cases hxy with
  | ok hab => exact h _ _ hab
  | error e => exact .error e

/-- Two loops with a state agree when their turns do. -/
theorem Agree.foldlM {γ : Type} {f : α → γ → Except ε α} {g : α' → γ → Except ε α'} {cs : List γ}
    (turn : ∀ a b c, c ∈ cs → R a b → Agree R (f a c) (g b c)) {a : α} {b : α'} (h : R a b) :
    Agree R (cs.foldlM f a) (cs.foldlM g b) := by
  induction cs generalizing a b with
  | nil => exact .ok h
  | cons c cs ih =>
    rw [List.foldlM_cons, List.foldlM_cons]
    refine (turn a b c List.mem_cons_self h).bind fun a' b' h' => ?_
    exact ih (fun a b c hc => turn a b c (List.mem_cons_of_mem _ hc)) h'

end Outcome

namespace Journal

instance : LawfulMonad (Journal ε) :=
  LawfulMonad.mk' (Journal ε)
    (fun x => by
      show andThen x (fun a => ok a) = x
      obtain ⟨notes, outcome⟩ := x
      cases outcome <;> simp [andThen, ok])
    (fun a f => by
      show andThen (ok a) f = f a
      simp [andThen, ok])
    (fun x f g => by
      show andThen (andThen x f) g = andThen x fun a => andThen (f a) g
      obtain ⟨notes, outcome⟩ := x
      cases outcome with
      | error e => rfl
      | ok a =>
        simp only [andThen]
        cases (f a).outcome <;> simp)

/-- The outcome of a loop is the loop of the outcomes. -/
theorem outcome_mapM (f : α → Journal ε β) (as : List α) :
    (as.mapM f).outcome = as.mapM fun a => (f a).outcome := by
  induction as with
  | nil => rfl
  | cons a as ih =>
    simp only [List.mapM_cons, outcome_bind, ih, outcome_pure]
    rfl

/-- A computation of two steps succeeds when its first step and then its second do. -/
theorem bind_eq_ok {x : Journal ε α} {f : α → Journal ε β} {b : β} :
    (x >>= f).outcome = .ok b ↔ ∃ a, x.outcome = .ok a ∧ (f a).outcome = .ok b := by
  rw [outcome_bind, Outcome.bind_eq_ok]

/-- A computation of two steps fails in its first step or, that one succeeding, in its second. -/
theorem bind_eq_error {x : Journal ε α} {f : α → Journal ε β} {e : ε} :
    (x >>= f).outcome = .error e ↔
      x.outcome = .error e ∨ ∃ a, x.outcome = .ok a ∧ (f a).outcome = .error e := by
  rw [outcome_bind, Outcome.bind_eq_error]

/-- The outcome of a loop with a state is the loop of the outcomes. -/
theorem outcome_foldlM (f : β → α → Journal ε β) (as : List α) (b : β) :
    (as.foldlM f b).outcome = as.foldlM (fun b a => (f b a).outcome) b := by
  induction as generalizing b with
  | nil => rfl
  | cons a as ih =>
    simp only [List.foldlM_cons, outcome_bind, ih]

/-- What each turn of a loop keeps the loop keeps, along with a value. -/
theorem foldlM_keeps_along {γ : Type} {f : β → α → Journal ε β} {g : γ → α → γ} {P : γ → β → Prop}
    {as : List α} (turn : ∀ c b a b', a ∈ as → P c b → (f b a).outcome = .ok b' → P (g c a) b')
    {c : γ} {b b' : β} (h : P c b) (hok : (as.foldlM f b).outcome = .ok b') :
    P (as.foldl g c) b' := by
  rw [outcome_foldlM] at hok
  exact Outcome.foldlM_keeps_along turn h hok

/-- What each turn of a loop keeps of the elements gone through so far, the loop keeps of all. -/
theorem foldlM_keeps_done {f : β → α → Journal ε β} {P : List α → β → Prop} {as : List α}
    (turn : ∀ done b a b', a ∈ as → P done b → (f b a).outcome = .ok b' → P (done ++ [a]) b')
    {b b' : β} (h : P [] b) (hok : (as.foldlM f b).outcome = .ok b') : P as b' := by
  rw [outcome_foldlM] at hok
  exact Outcome.foldlM_keeps_done turn h hok

/-- What each turn of a loop keeps the loop keeps. -/
theorem foldlM_keeps {f : β → α → Journal ε β} {P : β → Prop} {as : List α}
    (turn : ∀ b a b', a ∈ as → P b → (f b a).outcome = .ok b' → P b') {b b' : β} (h : P b)
    (hok : (as.foldlM f b).outcome = .ok b') : P b' := by
  rw [outcome_foldlM] at hok
  exact Outcome.foldlM_keeps turn h hok

end Journal

end VirtNet
