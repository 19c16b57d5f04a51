import Lsw.Lib.Exec

/-!
# Trees of Elements

A document with nested elements is read as a stream: each element starts, what is in it follows,
and it ends.  `Content` is what stands between the start and the end of an element, and `events` how
it is read; a reader that is a loop over the events runs over content by the rules at the end.

Nothing here names a particular program.
-/

namespace Lsw.Lib

variable {α : Type}

/-- What is in an element: elements, and other things that do not nest. -/
inductive Content (α : Type) where
  | nil
  | other (rest : Content α)
  | element (tag : α) (inner rest : Content α)

/-- What a reader is told. -/
inductive TreeEvent (α : Type) where
  | startDocument
  | start (tag : α)
  | finish
  | other
  | endDocument
  deriving DecidableEq

namespace Content

/-- How content is read. -/
def events : Content α → List (TreeEvent α)
  | nil => []
  | other rest => .other :: rest.events
  | element tag inner rest => .start tag :: (inner.events ++ .finish :: rest.events)

/-- How deep the elements nest. -/
def depth : Content α → Nat
  | nil => 0
  | other rest => rest.depth
  | element _ inner rest => max (inner.depth + 1) rest.depth

/-- The elements that are directly in it, each with its content. -/
def children : Content α → List (α × Content α)
  | nil => []
  | other rest => rest.children
  | element tag inner rest => (tag, inner) :: rest.children

/-- Some other things in front. -/
def others : Nat → Content α → Content α
  | 0, rest => rest
  | count + 1, rest => other (others count rest)

@[simp] theorem children_others (count : Nat) (rest : Content α) :
    (others count rest).children = rest.children := by
  induction count with
  | zero => rfl
  | succ count ih => simpa [others, children] using ih

@[simp] theorem depth_others (count : Nat) (rest : Content α) :
    (others count rest).depth = rest.depth := by
  induction count with
  | zero => rfl
  | succ count ih => simpa [others, depth] using ih

end Content

/-- A document: one element, and other things around it. -/
structure Document (α : Type) where
  prolog : Nat
  root : α
  content : Content α
  epilog : Nat

namespace Document

/-- The document as content. -/
def body (document : Document α) : Content α :=
  .others document.prolog
    (.element document.root document.content (.others document.epilog .nil))

/-- How a document is read. -/
def events (document : Document α) : List (TreeEvent α) :=
  .startDocument :: (document.body.events ++ [.endDocument])

theorem children_body (document : Document α) :
    document.body.children = [(document.root, document.content)] := by
  simp [body, Content.children]

theorem depth_body (document : Document α) : document.body.depth = document.content.depth + 1 := by
  simp [body, Content.depth]

end Document

/-! ## Reading -/

section Reading

variable {ε σ : Type} {step : σ → TreeEvent α → Except ε σ}

/-- One list of events after the other. -/
theorem forEach_events_append (xs ys : List (TreeEvent α)) (s : σ) :
    forEach (xs ++ ys) step s = forEach xs step s >>= forEach ys step := by
  rw [forEach, List.foldlM_append]
  rfl

/-- An element: its start, what is in it, its end, and then what follows. -/
theorem forEach_element (tag : α) (inner rest : Content α) (s : σ) :
    forEach (Content.element tag inner rest).events step s =
      step s (.start tag) >>= fun t => forEach inner.events step t >>= fun u =>
        step u .finish >>= forEach rest.events step := by
  rw [Content.events, forEach_cons]
  congr 1
  funext t
  rw [forEach_events_append]
  rfl

end Reading

end Lsw.Lib
