/-!
# Dialogues

A computation that asks questions, one at a time, and goes on with each answer. What answers is
left open: a list of prepared answers, another dialogue, or the world.

Main statement: answering a sequence of two dialogues is answering one after the other
(`interpret_bind`).
-/

namespace ChangeDesk

/-- A computation with a result in `α` that may ask questions `q : Q`, answered in `A q`. -/
inductive Dialogue (Q : Type) (A : Q → Type) (α : Type) where
  | done (a : α)
  | ask (q : Q) (next : A q → Dialogue Q A α)

namespace Dialogue

variable {Q : Type} {A : Q → Type} {α β : Type}

/-- Goes on with the result of a dialogue. -/
def bind : Dialogue Q A α → (α → Dialogue Q A β) → Dialogue Q A β
  | .done a, f => f a
  | .ask q next, f => .ask q fun a => bind (next a) f

instance : Monad (Dialogue Q A) where
  pure := .done
  bind := bind

/-- Asks one question. -/
def question (q : Q) : Dialogue Q A (A q) := .ask q .done

/-- Lets the questions be answered by a computation of another kind. -/
def interpret {m : Type → Type} [Monad m] (answer : (q : Q) → m (A q)) :
    Dialogue Q A α → m α
  | .done a => pure a
  | .ask q next => do
    let a ← answer q
    interpret answer (next a)

@[simp] theorem interpret_done {m : Type → Type} [Monad m] (answer : (q : Q) → m (A q)) (a : α) :
    interpret answer (.done a) = (pure a : m α) := rfl

theorem interpret_bind {m : Type → Type} [Monad m] [LawfulMonad m]
    (answer : (q : Q) → m (A q)) (d : Dialogue Q A α) (f : α → Dialogue Q A β) :
    interpret answer (d.bind f) = (interpret answer d >>= fun a => interpret answer (f a)) := by
  induction d with
  | done a => simp [bind, interpret]
  | ask q next ih => simp [bind, interpret, ih]

end Dialogue

end ChangeDesk
