import Lsw.Lib.Exec

/-!
# Calls that do not Panic, and Calls on More Input

`Ends S x P` says that a call does not panic, under the assumption `S`, and that whatever it returns
fulfils `P`; an error it reports is no concern.  It composes along `>>=`, so one pass over a function
shows both that it is safe and what it returns.

`Extends x y` says that `y` returns whatever `x` returns.  A parser that reads only a part of its
input extends its own call on a shorter input.
-/

namespace Lsw.Lib

variable {ε α β σ : Type}

/-! ## Safe calls -/

/-- The call does not panic when `S` holds, and what it returns fulfils `P`. -/
def Ends (S : Prop) (x : Exec ε α) (P : α → Prop) : Prop :=
  match x with
  | .ok a => P a
  | .error (.error _) => True
  | .error .panic => ¬ S

namespace Ends

variable {S : Prop}

theorem ok {a : α} {P : α → Prop} (h : P a) : Ends S (.ok a : Exec ε α) P := h

theorem pure {a : α} {P : α → Prop} (h : P a) : Ends S (pure a : Exec ε α) P := h

theorem fail (e : ε) (P : α → Prop) : Ends S (.error (.error e) : Exec ε α) P := trivial

theorem of_ok {x : Exec ε α} {P : α → Prop} {a : α} (h : Ends S x P) (hx : x = .ok a) : P a := by
  rw [hx] at h
  exact h

theorem not_panic {x : Exec ε α} {P : α → Prop} (h : Ends S x P) (hS : S) :
    x ≠ .error .panic := by
  rintro rfl
  exact h hS

theorem mono {x : Exec ε α} {P Q : α → Prop} (h : Ends S x P) (hPQ : ∀ a, P a → Q a) :
    Ends S x Q := by
  cases x with
  | ok a => exact hPQ a h
  | error fault =>
    cases fault with
    | error e => trivial
    | panic => exact h

/-- What is returned is returned by this call. -/
theorem self {x : Exec ε α} {P : α → Prop} (h : Ends S x P) :
    Ends S x fun a => x = .ok a ∧ P a := by
  cases x with
  | ok a => exact ⟨rfl, h⟩
  | error fault =>
    cases fault with
    | error e => trivial
    | panic => exact h

/-- A call in two parts: what the first returns is what the second may rely on. -/
theorem bind {x : Exec ε α} {f : α → Exec ε β} {P : α → Prop} {Q : β → Prop} (hx : Ends S x P)
    (hf : ∀ a, P a → Ends S (f a) Q) : Ends S (x >>= f) Q := by
  cases x with
  | ok a => exact hf a hx
  | error fault =>
    cases fault with
    | error e => trivial
    | panic => exact hx

theorem ite {c : Prop} [Decidable c] {x y : Exec ε α} {P : α → Prop} (hx : c → Ends S x P)
    (hy : ¬ c → Ends S y P) : Ends S (if c then x else y) P := by
  split
  next hc => exact hx hc
  next hc => exact hy hc

theorem rejectIf {bad : Prop} [Decidable bad] (e : ε) :
    Ends S (rejectIf bad (.error e) : Exec ε Unit) fun _ => ¬ bad := by
  unfold Lib.rejectIf
  split
  next => trivial
  next h => exact h

theorem okOr {x : Option α} (e : ε) :
    Ends S (okOr x (.error e) : Exec ε α) fun a => x = some a := by
  cases x with
  | none => trivial
  | some a => exact rfl

theorem addUsize {a b : Nat} (h : S → a + b < usizeSize) :
    Ends S (addUsize a b : Exec ε Nat) fun sum => sum = a + b := by
  unfold Lib.addUsize
  split
  next => exact rfl
  next hlarge => exact fun hS => hlarge (h hS)

theorem mulUsize {a b : Nat} (h : S → a * b < usizeSize) :
    Ends S (mulUsize a b : Exec ε Nat) fun product => product = a * b := by
  unfold Lib.mulUsize
  split
  next => exact rfl
  next hlarge => exact fun hS => hlarge (h hS)

theorem index {buffer : List α} {i : Nat} (h : S → i < buffer.length) :
    Ends S (index buffer i : Exec ε α) fun a => buffer[i]? = some a := by
  unfold Lib.index
  split
  next a ha => exact ha
  next hnone => exact fun hS => absurd (h hS) (Nat.not_lt.mpr (List.getElem?_eq_none_iff.mp hnone))

theorem slice {buffer : List α} {start stop : Nat}
    (h : S → start ≤ stop ∧ stop ≤ buffer.length) :
    Ends S (slice buffer start stop : Exec ε (List α)) fun part =>
      part = (buffer.take stop).drop start ∧ start ≤ stop ∧ stop ≤ buffer.length := by
  unfold Lib.slice
  split
  next hbounds => exact ⟨rfl, hbounds⟩
  next hbounds => exact fun hS => hbounds (h hS)

/-- `iter.map(f).collect()` collects what every call returns. -/
theorem mapM {xs : List α} {f : α → Exec ε β} {Q : α → β → Prop}
    (h : ∀ x ∈ xs, Ends S (f x) (Q x)) :
    Ends S (xs.mapM f) fun ys => List.Forall₂ Q xs ys := by
  induction xs with
  | nil => exact List.Forall₂.nil
  | cons x xs ih =>
    rw [List.mapM_cons]
    refine (h x List.mem_cons_self).bind fun y hy => ?_
    refine (ih fun z hz => h z (List.mem_cons_of_mem _ hz)).bind fun ys hys => ?_
    exact List.Forall₂.cons hy hys

/-- A loop whose iterations keep an invariant, indexed by what was visited, ends with it. -/
theorem forEach {xs : List α} {body : σ → α → Exec ε σ} (inv : List α → σ → Prop) {s : σ}
    (hinit : inv [] s)
    (hstep : ∀ seen x rest t, xs = seen ++ x :: rest → inv seen t →
      Ends S (body t x) (inv (seen ++ [x]))) :
    Ends S (forEach xs body s) (inv xs) := by
  -- Generalise over the visited prefix, then recurse on what is left of the list.
  suffices h : ∀ rest seen t, xs = seen ++ rest → inv seen t →
      Ends S (Lib.forEach rest body t) (inv xs) by
    exact h xs [] s rfl hinit
  intro rest
  induction rest with
  | nil =>
    intro seen t hxs hinv
    rw [List.append_nil] at hxs
    rw [hxs]
    exact hinv
  | cons x rest ih =>
    intro seen t hxs hinv
    rw [forEach_cons]
    exact (hstep seen x rest t hxs hinv).bind fun t' ht' =>
      ih (seen ++ [x]) t' (by simp [hxs]) ht'

end Ends

/-! ## More input -/

/-- What the first call returns, the second returns. -/
def Extends (x y : Except ε α) : Prop := ∀ a, x = .ok a → y = .ok a

namespace Extends

theorem refl (x : Except ε α) : Extends x x := fun _ h => h

theorem bind {x y : Except ε α} {f g : α → Except ε β} (hxy : Extends x y)
    (hfg : ∀ a, x = .ok a → Extends (f a) (g a)) : Extends (x >>= f) (y >>= g) := by
  intro b h
  obtain ⟨a, ha, hb⟩ := bind_eq_ok.mp h
  rw [hxy a ha, ok_bind]
  exact hfg a ha b hb

theorem ite {c : Prop} [Decidable c] {x x' y y' : Except ε α} (hx : Extends x x')
    (hy : Extends y y') : Extends (if c then x else y) (if c then x' else y') := by
  split
  · exact hx
  · exact hy

theorem mapM {xs : List α} {f g : α → Except ε β} (h : ∀ x ∈ xs, Extends (f x) (g x)) :
    Extends (xs.mapM f) (xs.mapM g) := by
  induction xs with
  | nil => exact refl _
  | cons x xs ih =>
    rw [List.mapM_cons, List.mapM_cons]
    refine (h x List.mem_cons_self).bind fun y _ => ?_
    refine (ih fun z hz => h z (List.mem_cons_of_mem _ hz)).bind fun ys _ => ?_
    exact refl _

theorem forEach {xs : List α} {body body' : σ → α → Except ε σ}
    (h : ∀ s, ∀ x ∈ xs, Extends (body s x) (body' s x)) (s : σ) :
    Extends (forEach xs body s) (forEach xs body' s) := by
  induction xs generalizing s with
  | nil => exact refl _
  | cons x xs ih =>
    rw [forEach_cons, forEach_cons]
    exact (h s x List.mem_cons_self).bind fun t _ =>
      ih (fun t y hy => h t y (List.mem_cons_of_mem _ hy)) t

/-- A buffer that goes on after its end is indexed and sliced as before. -/
theorem index (buffer extra : List α) (i : Nat) :
    Extends (index buffer i : Exec ε α) (Lib.index (buffer ++ extra) i) := by
  intro a h
  have hget : buffer[i]? = some a := by
    unfold Lib.index at h
    split at h
    next b hb => rw [hb, Except.ok.inj h]
    next => cases h
  obtain ⟨hi, -⟩ := List.getElem?_eq_some_iff.mp hget
  exact index_eq_ok (by rw [List.getElem?_append_left hi, hget])

theorem slice (buffer extra : List α) (start stop : Nat) :
    Extends (slice buffer start stop : Exec ε (List α)) (Lib.slice (buffer ++ extra) start stop) := by
  intro part h
  unfold Lib.slice at h
  split at h
  next hbounds =>
    rw [slice_eq_ok hbounds.1 (by rw [List.length_append]; omega),
      List.take_append_of_le_length hbounds.2]
    exact h
  next => cases h

end Extends

end Lsw.Lib
