import Lsw.Lib.Effect
import Mathlib.Logic.Relation

/-!
# Calls that Leave a Trace

`Traced σ ν ε α` is a call that reads and changes a state `σ`, returns an `α` or fails with
an `ε`, and reports events `ν` on the way.  Events are only ever added, so what is said of the
events of a whole call is said of every part of it.  That gives an assume-guarantee reading of
pre- and postconditions: `Sat A G P x Q E` holds if, as long as every event of `x` meets `A`,
every event of `x` meets `G` and the postcondition holds.

Nothing here names a particular program.
-/

namespace Lsw.Lib

/-- How a call ends: its result, the state it leaves and the events it reported. -/
structure Outcome (σ ν ε α : Type) where
  result : Except ε α
  state : σ
  events : List ν

/-- A call on a state that reports events. -/
def Traced (σ ν ε α : Type) := σ → Outcome σ ν ε α

namespace Traced

variable {σ ν ε α β : Type}

instance : Monad (Traced σ ν ε) where
  pure a := fun s => ⟨.ok a, s, []⟩
  bind x f := fun s =>
    match (x s).result with
    | .ok a =>
      ⟨(f a (x s).state).result, (f a (x s).state).state,
        (x s).events ++ (f a (x s).state).events⟩
    | .error e => ⟨.error e, (x s).state, (x s).events⟩

/-- Look at the state. -/
def read (f : σ → α) : Traced σ ν ε α := fun s => ⟨.ok (f s), s, []⟩

/-- Change the state. -/
def modify (f : σ → σ) : Traced σ ν ε Unit := fun s => ⟨.ok (), f s, []⟩

/-- Report an event, which may depend on the state. -/
def emit (f : σ → ν) : Traced σ ν ε Unit := fun s => ⟨.ok (), s, [f s]⟩

/-- End with an error. -/
def fail (e : ε) : Traced σ ν ε α := fun s => ⟨.error e, s, []⟩

/-- `?` on a result that is at hand. -/
def ofExcept : Except ε α → Traced σ ν ε α
  | .ok a => pure a
  | .error e => fail e

/-- A call whose error is looked at or dropped, unless it is one that cannot be survived. -/
def attempt (fatal : ε → Bool) (x : Traced σ ν ε α) : Traced σ ν ε (Except ε α) := fun s =>
  match (x s).result with
  | .ok a => ⟨.ok (.ok a), (x s).state, (x s).events⟩
  | .error e =>
    ⟨if fatal e then .error e else .ok (.error e), (x s).state, (x s).events⟩

/-- `for x in xs { body(x)?; }`. -/
def each (body : α → Traced σ ν ε Unit) : List α → Traced σ ν ε Unit
  | [] => pure ()
  | x :: xs => do
    body x
    each body xs

instance : LawfulMonad (Traced σ ν ε) := by
  refine .mk' _ (fun x => ?_) (fun a f => ?_) fun x f g => ?_
  · funext s
    simp only [Functor.map]
    rcases hx : x s with ⟨e | a, middle, events⟩
    · rfl
    · show Outcome.mk (.ok a) middle (events ++ []) = _
      rw [List.append_nil]
  · funext s
    simp only [Bind.bind, Pure.pure, List.nil_append]
  · funext s
    simp only [Bind.bind]
    cases (x s).result with
    | error e => rfl
    | ok a =>
      dsimp only
      cases (f a (x s).state).result with
      | error e => rfl
      | ok b => simp only [List.append_assoc]

/-! ## What a call returns -/

/-- The call returns `a` and leaves `s'`. -/
def Returns (x : Traced σ ν ε α) (s : σ) (a : α) (s' : σ) : Prop :=
  (x s).result = .ok a ∧ (x s).state = s'

section Returns

variable {x : Traced σ ν ε α} {s s' : σ} {a b : α}

theorem returns_bind {f : α → Traced σ ν ε β} {b : β} :
    Returns (x >>= f) s b s' ↔ ∃ a middle, Returns x s a middle ∧ Returns (f a) middle b s' := by
  simp only [Returns, Bind.bind]
  cases hresult : (x s).result with
  | error e => simp
  | ok a => simp

theorem returns_pure : Returns (Pure.pure a : Traced σ ν ε α) s b s' ↔ a = b ∧ s = s' := by
  simp [Returns, Pure.pure]

theorem returns_fail {e : ε} : Returns (Traced.fail e : Traced σ ν ε α) s a s' ↔ False := by
  simp [Returns, Traced.fail]

theorem returns_ofExcept {r : Except ε α} :
    Returns (Traced.ofExcept r : Traced σ ν ε α) s a s' ↔ r = .ok a ∧ s = s' := by
  cases r with
  | ok b => simp [Traced.ofExcept, returns_pure]
  | error e => simp [Traced.ofExcept, returns_fail]

theorem returns_ite {c : Prop} [Decidable c] {y : Traced σ ν ε α} :
    Returns (if c then x else y) s a s' ↔ (c ∧ Returns x s a s') ∨ (¬ c ∧ Returns y s a s') := by
  split <;> simp_all

/-- The call returns `a`, leaves `s'` and reports exactly `events`. -/
def Yields (x : Traced σ ν ε α) (s : σ) (a : α) (s' : σ) (events : List ν) : Prop :=
  x s = ⟨.ok a, s', events⟩

/-- Two calls yield the events of the one and then those of the other. -/
theorem yields_bind {f : α → Traced σ ν ε β} {b : β} {events : List ν} :
    Yields (x >>= f) s b s' events ↔
      ∃ a middle first second, Yields x s a middle first ∧ Yields (f a) middle b s' second ∧
        events = first ++ second := by
  simp only [Yields, Bind.bind]
  constructor
  · intro h
    rcases hx : x s with ⟨result, middle, first⟩
    rw [hx] at h
    cases result with
    | error e => simp at h
    | ok a =>
      simp only [Outcome.mk.injEq] at h
      obtain ⟨hresult, rfl, rfl⟩ := h
      refine ⟨a, middle, first, _, rfl, ?_, rfl⟩
      rw [← hresult]
  · rintro ⟨a, middle, first, second, hx, hf, rfl⟩
    simp only [hx, hf]

theorem yields_pure {events : List ν} :
    Yields (Pure.pure a : Traced σ ν ε α) s b s' events ↔ a = b ∧ s = s' ∧ events = [] := by
  simp [Yields, Pure.pure, eq_comm]

theorem yields_fail {e : ε} {events : List ν} :
    Yields (Traced.fail e : Traced σ ν ε α) s a s' events ↔ False := by
  simp [Yields, Traced.fail]

theorem yields_ofExcept {r : Except ε α} {events : List ν} :
    Yields (Traced.ofExcept r : Traced σ ν ε α) s a s' events ↔
      r = .ok a ∧ s = s' ∧ events = [] := by
  cases r with
  | ok b => simp [Traced.ofExcept, yields_pure]
  | error e => simp [Traced.ofExcept, yields_fail]

theorem yields_ite {c : Prop} [Decidable c] {y : Traced σ ν ε α} {events : List ν} :
    Yields (if c then x else y) s a s' events ↔
      (c ∧ Yields x s a s' events) ∨ (¬ c ∧ Yields y s a s' events) := by
  split <;> simp_all

/-- A call in two parts that reports an event of some kind does so in its first part, or its
    first part returns. -/
theorem events_bind {f : α → Traced σ ν ε β} (s : σ) :
    ((x >>= f) s).events = (x s).events ∨
      ∃ a, Yields x s a (x s).state (x s).events ∧
        ((x >>= f) s).events = (x s).events ++ (f a (x s).state).events := by
  rcases hx : x s with ⟨result, middle, first⟩
  cases result with
  | error e => exact .inl (by simp [Bind.bind, hx])
  | ok a => exact .inr ⟨a, hx, by simp [Bind.bind, hx]⟩

end Returns

/-! ## Calls in two parts -/

section Bind

variable {x : Traced σ ν ε α} {f : α → Traced σ ν ε β} {s : σ}

theorem bind_of_ok {a : α} (h : (x s).result = .ok a) :
    (x >>= f) s = ⟨(f a (x s).state).result, (f a (x s).state).state,
      (x s).events ++ (f a (x s).state).events⟩ := by
  simp only [Bind.bind, h]

theorem bind_of_error {e : ε} (h : (x s).result = .error e) :
    (x >>= f) s = ⟨.error e, (x s).state, (x s).events⟩ := by
  simp only [Bind.bind, h]

/-- A call in two parts succeeds when both parts do. -/
theorem isOk_bind :
    ((x >>= f) s).result.isOk = true ↔
      ∃ a, (x s).result = .ok a ∧ (f a (x s).state).result.isOk = true := by
  cases hx : (x s).result with
  | error e => simp [bind_of_error hx, Except.isOk, Except.toBool]
  | ok a => simp [bind_of_ok hx]

theorem bind_attempt_of_ok {fatal : ε → Bool} {f : Except ε α → Traced σ ν ε β} {a : α}
    (h : (x s).result = .ok a) :
    (attempt fatal x >>= f) s = ⟨(f (.ok a) (x s).state).result, (f (.ok a) (x s).state).state,
      (x s).events ++ (f (.ok a) (x s).state).events⟩ := by
  simp only [Bind.bind, attempt, h]

theorem bind_attempt_of_error {fatal : ε → Bool} {f : Except ε α → Traced σ ν ε β} {e : ε}
    (h : (x s).result = .error e) (hcaught : fatal e = false) :
    (attempt fatal x >>= f) s = ⟨(f (.error e) (x s).state).result,
      (f (.error e) (x s).state).state, (x s).events ++ (f (.error e) (x s).state).events⟩ := by
  simp only [Bind.bind, attempt, h, hcaught, Bool.false_eq_true, if_false]

end Bind

/-! ## Pre- and postconditions -/

/-- From every state with `P`, if all events of the call meet `A`, then they meet `G`, and the
    call returns with `Q` or fails with `E`. -/
def Sat (A G : ν → Prop) (P : σ → Prop) (x : Traced σ ν ε α) (Q : α → σ → Prop)
    (E : σ → Prop) : Prop :=
  ∀ s, P s → (∀ event ∈ (x s).events, A event) →
    (∀ event ∈ (x s).events, G event) ∧
      match (x s).result with
      | .ok a => Q a (x s).state
      | .error _ => E (x s).state

section Rules

variable {A G : ν → Prop} {P P' : σ → Prop} {x : Traced σ ν ε α} {Q : α → σ → Prop}
  {E E' : σ → Prop}

theorem Sat.pure {a : α} (h : ∀ s, P s → Q a s) : Sat A G P (Pure.pure a : Traced σ ν ε α) Q E :=
  fun s hs _ => ⟨by simp [Pure.pure], h s hs⟩

/-- One call after the other. -/
theorem Sat.bind {f : α → Traced σ ν ε β} {R : β → σ → Prop} (hx : Sat A G P x Q E)
    (hf : ∀ a, Sat A G (Q a) (f a) R E) : Sat A G P (x >>= f) R E := by
  intro s hs hassumed
  have hfirst := hx s hs
  simp only [Bind.bind] at hassumed ⊢
  cases hresult : (x s).result with
  | error e =>
    simp only [hresult] at hassumed hfirst ⊢
    exact hfirst hassumed
  | ok a =>
    simp only [hresult, List.mem_append] at hassumed hfirst ⊢
    obtain ⟨hguaranteed, hmiddle⟩ := hfirst fun event h => hassumed event (.inl h)
    have hrest := hf a (x s).state hmiddle fun event h => hassumed event (.inr h)
    exact ⟨fun event h => h.elim (hguaranteed event) (hrest.1 event), hrest.2⟩

theorem Sat.mono {Q' : α → σ → Prop} (h : Sat A G P x Q E) (hP : ∀ s, P' s → P s)
    (hQ : ∀ a s, Q a s → Q' a s) (hE : ∀ s, E s → E' s) : Sat A G P' x Q' E' := by
  intro s hs hassumed
  have hx := h s (hP s hs) hassumed
  refine ⟨hx.1, ?_⟩
  cases hresult : (x s).result with
  | ok a =>
    rw [hresult] at hx
    exact hQ a _ hx.2
  | error e =>
    rw [hresult] at hx
    exact hE _ hx.2

theorem Sat.pre (h : Sat A G P x Q E) (hP : ∀ s, P' s → P s) : Sat A G P' x Q E :=
  h.mono hP (fun _ _ => id) fun _ => id

theorem Sat.weaken (h : Sat A G P x Q E) (hE : ∀ s, E s → E' s) : Sat A G P x Q E' :=
  h.mono (fun _ => id) (fun _ _ => id) hE

theorem Sat.read {f : σ → α} (h : ∀ s, P s → Q (f s) s) :
    Sat A G P (Traced.read f : Traced σ ν ε α) Q E :=
  fun s hs _ => ⟨by simp [Traced.read], h s hs⟩

/-- A look at the state whose value does not matter. -/
theorem Sat.look {f : σ → α} : Sat A G P (Traced.read f : Traced σ ν ε α) (fun _ => P) E :=
  .read fun _ => id

theorem Sat.modify {f : σ → σ} {Q : Unit → σ → Prop} (h : ∀ s, P s → Q () (f s)) :
    Sat A G P (Traced.modify f : Traced σ ν ε Unit) Q E :=
  fun s hs _ => ⟨by simp [Traced.modify], h s hs⟩

theorem Sat.emit {f : σ → ν} {Q : Unit → σ → Prop}
    (h : ∀ s, P s → A (f s) → G (f s) ∧ Q () s) :
    Sat A G P (Traced.emit f : Traced σ ν ε Unit) Q E := by
  intro s hs hassumed
  obtain ⟨hG, hQ⟩ := h s hs (hassumed (f s) (by simp [Traced.emit]))
  exact ⟨by simpa [Traced.emit] using hG, hQ⟩

theorem Sat.fail {e : ε} (h : ∀ s, P s → E s) :
    Sat A G P (Traced.fail e : Traced σ ν ε α) Q E :=
  fun s hs _ => ⟨by simp [Traced.fail], h s hs⟩

theorem Sat.ofExcept {r : Except ε α} (hok : ∀ a, r = .ok a → ∀ s, P s → Q a s)
    (herror : ∀ s, P s → E s) : Sat A G P (Traced.ofExcept r) Q E := by
  cases r with
  | ok a => exact .pure (hok a rfl)
  | error e => exact .fail herror

/-- What holds of a result that is caught, by what it is. -/
def caught (Q : α → σ → Prop) (E : σ → Prop) : Except ε α → σ → Prop
  | .ok a => Q a
  | .error _ => E

/-- An error that is caught is a result like any other. -/
theorem Sat.attempt {fatal : ε → Bool} {Q : Except ε α → σ → Prop}
    (h : Sat A G P x (fun a => Q (.ok a)) E') (hcaught : ∀ e s, E' s → Q (.error e) s)
    (hfatal : ∀ e s, fatal e = true → E' s → E s) : Sat A G P (Traced.attempt fatal x) Q E := by
  intro s hs
  have hx := h s hs
  simp only [Traced.attempt]
  cases hresult : (x s).result with
  | ok a =>
    simp only [hresult] at hx ⊢
    exact hx
  | error e =>
    simp only [hresult] at hx ⊢
    intro hassumed
    refine ⟨(hx hassumed).1, ?_⟩
    by_cases hf : fatal e = true
    · rw [if_pos hf]
      exact hfatal e _ hf (hx hassumed).2
    · rw [if_neg hf]
      exact hcaught e _ (hx hassumed).2

theorem Sat.ite {c : Prop} [Decidable c] {y : Traced σ ν ε α} (hx : c → Sat A G P x Q E)
    (hy : ¬ c → Sat A G P y Q E) : Sat A G P (if c then x else y) Q E := by
  split
  · exact hx ‹_›
  · exact hy ‹_›

/-- A precondition that does not speak of the state is a hypothesis. -/
theorem Sat.given {c : Prop} (h : c → Sat A G P x Q E) : Sat A G (fun s => P s ∧ c) x Q E :=
  fun s hs => h hs.2 s hs.1

/-- A value of the state before the call is given a name. -/
theorem Sat.fix {γ : Type} (f : σ → γ) (h : ∀ c, Sat A G (fun s => P s ∧ f s = c) x Q E) :
    Sat A G P x Q E := fun s hs => h (f s) s ⟨hs, rfl⟩

/-- From a state that there is not, everything holds. -/
theorem Sat.of_false (h : ∀ s, ¬ P s) : Sat A G P x Q E := fun s hs => absurd hs (h s)

/-- Where nothing is asked, nothing is to be shown. -/
theorem Sat.trivial : Sat A (fun _ => True) P x (fun _ _ => True) fun _ => True := by
  intro s _ _
  refine ⟨fun _ _ => True.intro, ?_⟩
  cases (x s).result <;> exact True.intro

/-- Where nothing is assumed of the events, the state is as stated. -/
theorem Sat.state {Q : σ → Prop} {s : σ} (h : Sat (fun _ => True) G P x (fun _ => Q) Q)
    (hs : P s) : Q (x s).state := by
  have hx := (h s hs fun _ _ => True.intro).2
  cases hresult : (x s).result with
  | ok a =>
    rw [hresult] at hx
    exact hx
  | error e =>
    rw [hresult] at hx
    exact hx

theorem Sat.of_ok {s : σ} {a : α} (h : Sat (fun _ => True) G P x Q E) (hs : P s)
    (hresult : (x s).result = .ok a) : Q a (x s).state := by
  have hx := (h s hs fun _ _ => True.intro).2
  rwa [hresult] at hx

theorem Sat.of_error {s : σ} {e : ε} (h : Sat (fun _ => True) G P x Q E) (hs : P s)
    (hresult : (x s).result = .error e) : E (x s).state := by
  have hx := (h s hs fun _ _ => True.intro).2
  rwa [hresult] at hx

/-- The rule for loops: what every iteration keeps, the loop keeps. -/
theorem Sat.each_mem {body : α → Traced σ ν ε Unit} {xs : List α}
    (h : ∀ a ∈ xs, Sat A G P (body a) (fun _ => P) E) :
    Sat A G P (Traced.each body xs) (fun _ => P) E := by
  induction xs with
  | nil => exact .pure fun _ => id
  | cons a xs ih =>
    exact (h a List.mem_cons_self).bind fun _ => ih fun b hb => h b (List.mem_cons_of_mem _ hb)

theorem Sat.each {body : α → Traced σ ν ε Unit} {xs : List α}
    (h : ∀ a, Sat A G P (body a) (fun _ => P) E) :
    Sat A G P (Traced.each body xs) (fun _ => P) E := .each_mem fun a _ => h a

end Rules

/-! ## Calls that stay within a relation -/

/-- Whatever happens, the call reports nothing and moves the state along the relation. -/
def Within (R : σ → σ → Prop) (x : Traced σ ν ε α) : Prop :=
  ∀ s, R s (x s).state ∧ (x s).events = []

section Within

variable {R : σ → σ → Prop} {x : Traced σ ν ε α}

theorem Within.pure [Std.Refl R] (a : α) : Within R (Pure.pure a : Traced σ ν ε α) :=
  fun s => ⟨Std.Refl.refl s, rfl⟩

theorem Within.read [Std.Refl R] (f : σ → α) : Within R (Traced.read f : Traced σ ν ε α) :=
  fun s => ⟨Std.Refl.refl s, rfl⟩

theorem Within.fail [Std.Refl R] (e : ε) : Within R (Traced.fail e : Traced σ ν ε α) :=
  fun s => ⟨Std.Refl.refl s, rfl⟩

theorem Within.ofExcept [Std.Refl R] (r : Except ε α) :
    Within R (Traced.ofExcept r : Traced σ ν ε α) := by
  cases r with
  | ok a => exact .pure a
  | error e => exact .fail e

theorem Within.modify {f : σ → σ} (h : ∀ s, R s (f s)) :
    Within R (Traced.modify f : Traced σ ν ε Unit) := fun s => ⟨h s, rfl⟩

theorem Within.bind [IsTrans σ R] {f : α → Traced σ ν ε β} (hx : Within R x)
    (hf : ∀ a, Within R (f a)) : Within R (x >>= f) := by
  intro s
  obtain ⟨hfirst, hevents⟩ := hx s
  simp only [Bind.bind]
  cases (x s).result with
  | error e => exact ⟨hfirst, hevents⟩
  | ok a =>
    obtain ⟨hrest, hevents'⟩ := hf a (x s).state
    exact ⟨IsTrans.trans _ _ _ hfirst hrest, by simp [hevents, hevents']⟩

theorem Within.attempt {fatal : ε → Bool} (h : Within R x) :
    Within R (Traced.attempt fatal x) := by
  intro s
  simp only [Traced.attempt]
  cases (x s).result <;> exact h s

theorem Within.ite {c : Prop} [Decidable c] {y : Traced σ ν ε α} (hx : Within R x)
    (hy : Within R y) : Within R (if c then x else y) := by
  split
  · exact hx
  · exact hy

theorem Within.each [Std.Refl R] [IsTrans σ R] {body : α → Traced σ ν ε Unit} {xs : List α}
    (h : ∀ a, Within R (body a)) : Within R (Traced.each body xs) := by
  induction xs with
  | nil => exact .pure ()
  | cons a xs ih => exact (h a).bind fun _ => ih

theorem Within.mono {R' : σ → σ → Prop} (h : Within R x) (hR : ∀ s s', R s s' → R' s s') :
    Within R' x := fun s => ⟨hR _ _ (h s).1, (h s).2⟩

/-- A call is within a relation when its rules show that, from each state it may start in. -/
theorem Within.of_sat [IsEmpty ν]
    (h : ∀ s, Sat (fun _ => True) (fun _ => True) (· = s) x (fun _ => R s) (R s)) :
    Within R x := by
  intro s
  refine ⟨?_, List.eq_nil_iff_forall_not_mem.mpr fun event => isEmptyElim event⟩
  have hx := (h s s rfl fun _ _ => True.intro).2
  cases hresult : (x s).result with
  | ok a =>
    rw [hresult] at hx
    exact hx
  | error e =>
    rw [hresult] at hx
    exact hx

/-- A call within one relation, and then one within another. -/
theorem Within.comp {S : σ → σ → Prop} [Std.Refl S] {f : α → Traced σ ν ε β} (hx : Within R x)
    (hf : ∀ a, Within S (f a)) : Within (Relation.Comp R S) (x >>= f) := by
  intro s
  obtain ⟨hfirst, hevents⟩ := hx s
  simp only [Bind.bind]
  cases (x s).result with
  | error e => exact ⟨⟨_, hfirst, Std.Refl.refl _⟩, hevents⟩
  | ok a =>
    obtain ⟨hrest, hevents'⟩ := hf a (x s).state
    exact ⟨⟨_, hfirst, hrest⟩, by simp [hevents, hevents']⟩

/-- A call within the first of two relations may come before. -/
theorem Within.comp_left {S : σ → σ → Prop} [IsTrans σ R] [Std.Refl S] {f : α → Traced σ ν ε β}
    (hx : Within R x) (hf : ∀ a, Within (Relation.Comp R S) (f a)) :
    Within (Relation.Comp R S) (x >>= f) := by
  intro s
  obtain ⟨hfirst, hevents⟩ := hx s
  simp only [Bind.bind]
  cases (x s).result with
  | error e => exact ⟨⟨_, hfirst, Std.Refl.refl _⟩, hevents⟩
  | ok a =>
    obtain ⟨⟨middle, hmiddle, hrest⟩, hevents'⟩ := hf a (x s).state
    exact ⟨⟨middle, IsTrans.trans _ _ _ hfirst hmiddle, hrest⟩, by simp [hevents, hevents']⟩

/-- A call within a relation keeps what the relation keeps. -/
theorem Within.sat {A G : ν → Prop} {P : σ → Prop} (h : Within R x)
    (hP : ∀ s s', R s s' → P s → P s') : Sat A G P x (fun _ => P) P := by
  intro s hs _
  obtain ⟨hmoved, hevents⟩ := h s
  refine ⟨by simp [hevents], ?_⟩
  cases (x s).result <;> exact hP _ _ hmoved hs

end Within

end Traced

end Lsw.Lib
