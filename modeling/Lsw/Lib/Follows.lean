import Lsw.Lib.Traced

/-!
# Calls that Do the Same until One Is Blocked

To understand a call `x` that may call itself, it is compared with a simpler one, `y`, which does
the same but is blocked where `x` would begin anew.  `Follows` says that the two agree as long as
`y` is not blocked; where it is, `x` has begun anew and shows it.  With the two notions below, of
what a call reports at most and of calls that never fail, what `y` does tells what `x` does.

Nothing here names a particular program.
-/

namespace Lsw.Lib.Traced

variable {σ ν ε α β : Type} [DecidableEq ν]

/-! ## Agreement -/

/-- From every state with `P` the two calls do the same, and return with `Q`; or `y` is blocked,
    and then `x` is blocked as well or has reported `seen` at least `n` times. -/
def Follows (blocked : ε) (seen : ν) (n : Nat) (P : σ → Prop) (x y : Traced σ ν ε α)
    (Q : α → σ → Prop) : Prop :=
  ∀ s, P s →
    (x s = y s ∧ ∀ a, (y s).result = .ok a → Q a (y s).state) ∨
      (y s).result = .error blocked ∧
        (n ≤ (x s).events.count seen ∨ (x s).result = .error blocked)

section Follows

variable {blocked : ε} {seen : ν} {n : Nat} {P : σ → Prop} {x y : Traced σ ν ε α}
  {Q : α → σ → Prop}

/-- A call does what it does, and whatever is known of it. -/
theorem Follows.same {G : ν → Prop} {E : σ → Prop} (h : Sat (fun _ => True) G P x Q E) :
    Follows blocked seen n P x x Q :=
  fun _ hs => .inl ⟨rfl, fun _ => h.of_ok hs⟩

theorem Follows.refl (x : Traced σ ν ε α) : Follows blocked seen n P x x fun _ _ => True :=
  fun _ _ => .inl ⟨rfl, fun _ _ => True.intro⟩

theorem Follows.of_false (h : ∀ s, ¬ P s) : Follows blocked seen n P x y Q :=
  fun s hs => absurd hs (h s)

theorem Follows.pre {P' : σ → Prop} (h : Follows blocked seen n P x y Q)
    (hP : ∀ s, P' s → P s) : Follows blocked seen n P' x y Q := fun s hs => h s (hP s hs)

/-- Where `y` is blocked, `x` shows it. -/
theorem Follows.shows {s : σ} (h : Follows blocked seen n P x y Q) (hs : P s)
    (hblocked : (y s).result = .error blocked) :
    n ≤ (x s).events.count seen ∨ (x s).result = .error blocked := by
  rcases h s hs with ⟨hsame, -⟩ | ⟨-, hdeviates⟩
  · exact .inr (hsame ▸ hblocked)
  · exact hdeviates

/-- Where `y` is not blocked, the two calls do the same. -/
theorem Follows.eq {s : σ} (h : Follows blocked seen n P x y Q) (hs : P s)
    (hfree : (y s).result ≠ .error blocked) : x s = y s := by
  rcases h s hs with ⟨hsame, -⟩ | ⟨hblocked, -⟩
  · exact hsame
  · exact absurd hblocked hfree

/-- What is known of the simpler call may be used. -/
theorem Follows.strengthen {G : ν → Prop} {Q' : α → σ → Prop} {E : σ → Prop}
    (h : Follows blocked seen n P x y Q) (hy : Sat (fun _ => True) G P y Q' E) :
    Follows blocked seen n P x y Q' := by
  intro s hs
  rcases h s hs with ⟨hsame, -⟩ | hblocked
  · exact .inl ⟨hsame, fun _ => hy.of_ok hs⟩
  · exact .inr hblocked

/-- One call after the other, up to the first that is blocked. -/
theorem Follows.bind {f g : α → Traced σ ν ε β} {R : β → σ → Prop}
    (hx : Follows blocked seen n P x y Q) (hf : ∀ a, Follows blocked seen n (Q a) (f a) (g a) R) :
    Follows blocked seen n P (x >>= f) (y >>= g) R := by
  intro s hs
  rcases hx s hs with ⟨hsame, hQ⟩ | ⟨hy, hdeviates⟩
  · cases hresult : (y s).result with
    | error e =>
      rw [bind_of_error hresult, bind_of_error (hsame ▸ hresult), hsame]
      exact .inl ⟨rfl, nofun⟩
    | ok a =>
      rw [bind_of_ok hresult, bind_of_ok (hsame ▸ hresult), hsame]
      rcases hf a (y s).state (hQ a hresult) with ⟨hsame', hR⟩ | ⟨hg, hdeviates⟩
      · exact .inl ⟨by rw [hsame'], hR⟩
      · refine .inr ⟨hg, hdeviates.imp_left fun hcount => ?_⟩
        rw [List.count_append]
        exact Nat.le_trans hcount (Nat.le_add_left _ _)
  · refine .inr ⟨by rw [bind_of_error hy], ?_⟩
    -- What the first part shows, the whole call shows.
    rcases hdeviates with hcount | hblocked
    · cases hresult : (x s).result with
      | error e =>
        rw [bind_of_error hresult]
        exact .inl hcount
      | ok a =>
        rw [bind_of_ok hresult, List.count_append]
        exact .inl (Nat.le_trans hcount (Nat.le_add_right _ _))
    · rw [bind_of_error hblocked]
      exact .inr rfl

/-- Both report `seen` before they go on. -/
theorem Follows.emit (h : Follows blocked seen n P x y Q) :
    Follows blocked seen (n + 1) P (Traced.emit (fun _ => seen) >>= fun _ => x)
      (Traced.emit (fun _ => seen) >>= fun _ => y) Q := by
  intro s hs
  have hfirst : ∀ z : Traced σ ν ε α, (Traced.emit (fun _ => seen) >>= fun _ => z) s =
      ⟨(z s).result, (z s).state, seen :: (z s).events⟩ := fun _ => rfl
  rw [hfirst, hfirst]
  rcases h s hs with ⟨hsame, hQ⟩ | ⟨hy, hdeviates⟩
  · exact .inl ⟨by rw [hsame], hQ⟩
  · refine .inr ⟨hy, hdeviates.imp_left fun hcount => ?_⟩
    rw [List.count_cons_self]
    exact Nat.succ_le_succ hcount

/-- A call that is blocked is not survived. -/
theorem Follows.attempt {fatal : ε → Bool} {Q : Except ε α → σ → Prop}
    (h : Follows blocked seen n P x y fun _ _ => True) (hfatal : fatal blocked = true)
    (hQ : ∀ r s, Q r s) :
    Follows blocked seen n P (Traced.attempt fatal x) (Traced.attempt fatal y) Q := by
  intro s hs
  rcases h s hs with ⟨hsame, -⟩ | ⟨hy, hdeviates⟩
  · exact .inl ⟨by simp only [Traced.attempt, hsame], fun _ _ => hQ _ _⟩
  · refine .inr ⟨by simp only [Traced.attempt, hy, hfatal, if_true], ?_⟩
    rcases hdeviates with hcount | hblocked
    · refine .inl ?_
      simp only [Traced.attempt]
      split <;> exact hcount
    · exact .inr (by simp only [Traced.attempt, hblocked, hfatal, if_true])

theorem Follows.ite {c : Prop} [Decidable c] {x' y' : Traced σ ν ε α}
    (hx : c → Follows blocked seen n P x y Q) (hx' : ¬ c → Follows blocked seen n P x' y' Q) :
    Follows blocked seen n P (if c then x else x') (if c then y else y') Q := by
  split
  · exact hx ‹_›
  · exact hx' ‹_›

theorem Follows.each {body body' : α → Traced σ ν ε Unit} {as : List α}
    (h : ∀ a, Follows blocked seen n (fun _ => True) (body a) (body' a) fun _ _ => True) :
    Follows blocked seen n (fun _ => True) (Traced.each body as) (Traced.each body' as)
      fun _ _ => True := by
  induction as with
  | nil => exact .refl _
  | cons a as ih => exact (h a).bind fun _ => ih

end Follows

/-! ## How often something is reported -/

/-- The call reports `seen` at most `n` times. -/
def AtMost (seen : ν) (n : Nat) (x : Traced σ ν ε α) : Prop :=
  ∀ s, (x s).events.count seen ≤ n

section AtMost

variable {seen : ν} {m n : Nat} {x : Traced σ ν ε α}

theorem AtMost.bind {f : α → Traced σ ν ε β} (hx : AtMost seen m x)
    (hf : ∀ a, AtMost seen n (f a)) : AtMost seen (m + n) (x >>= f) := by
  intro s
  cases hresult : (x s).result with
  | error e =>
    rw [bind_of_error hresult]
    exact Nat.le_trans (hx s) (Nat.le_add_right m n)
  | ok a =>
    rw [bind_of_ok hresult, List.count_append]
    exact Nat.add_le_add (hx s) (hf a _)

/-- A call whose events are all others never reports it. -/
theorem AtMost.of_sat {Q : α → σ → Prop} {E : σ → Prop}
    (h : Sat (fun _ => True) (· ≠ seen) (fun _ => True) x Q E) : AtMost seen 0 x := by
  intro s
  rw [Nat.le_zero, List.count_eq_zero]
  exact fun hmem => (h s True.intro fun _ _ => True.intro).1 seen hmem rfl

theorem AtMost.mono (h : AtMost seen m x) (hle : m ≤ n) : AtMost seen n x :=
  fun s => Nat.le_trans (h s) hle

theorem AtMost.attempt {fatal : ε → Bool} (h : AtMost seen n x) :
    AtMost seen n (Traced.attempt fatal x) := by
  intro s
  simp only [Traced.attempt]
  split <;> exact h s

end AtMost

/-! ## Calls that never fail -/

/-- The call returns, from every state. -/
def Succeeds (x : Traced σ ν ε α) : Prop := ∀ s, ∃ a, (x s).result = .ok a

section Succeeds

variable {x : Traced σ ν ε α}

omit [DecidableEq ν]

theorem Succeeds.pure (a : α) : Succeeds (Pure.pure a : Traced σ ν ε α) := fun _ => ⟨a, rfl⟩

theorem Succeeds.read (f : σ → α) : Succeeds (Traced.read f : Traced σ ν ε α) :=
  fun s => ⟨f s, rfl⟩

theorem Succeeds.modify (f : σ → σ) : Succeeds (Traced.modify f : Traced σ ν ε Unit) :=
  fun _ => ⟨(), rfl⟩

theorem Succeeds.bind {f : α → Traced σ ν ε β} (hx : Succeeds x) (hf : ∀ a, Succeeds (f a)) :
    Succeeds (x >>= f) := by
  intro s
  obtain ⟨a, ha⟩ := hx s
  rw [bind_of_ok ha]
  exact hf a _

theorem Succeeds.ite {c : Prop} [Decidable c] {y : Traced σ ν ε α} (hx : Succeeds x)
    (hy : Succeeds y) : Succeeds (if c then x else y) := by
  split
  · exact hx
  · exact hy

/-- An error that is looked at is none. -/
theorem Succeeds.attempt {fatal : ε → Bool} (h : ∀ e, fatal e = false) :
    Succeeds (Traced.attempt fatal x) := by
  intro s
  simp only [Traced.attempt]
  split
  · exact ⟨_, rfl⟩
  · exact ⟨_, if_neg (by simp [h])⟩

theorem Succeeds.each {body : α → Traced σ ν ε Unit} {as : List α} (h : ∀ a, Succeeds (body a)) :
    Succeeds (Traced.each body as) := by
  induction as with
  | nil => exact .pure ()
  | cons a as ih => exact (h a).bind fun _ => ih

end Succeeds

end Lsw.Lib.Traced
