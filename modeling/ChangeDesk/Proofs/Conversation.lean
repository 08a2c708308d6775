import ChangeDesk.Dialogue

/-!
# Conversations

What comes of a dialogue is its conversation: the questions it asked with the answers it got, and
its result. `Dialogue.converse` carries a dialogue out with answers that may depend on the question
and on how many came before it; `Dialogue.Held` says of a conversation that it may have been held,
whoever answered, and is taken apart along the dialogue.

Main statements: conversations of a sequence (`held_bind`) and of a dialogue whose questions are
answered by other dialogues (`held_interpret`), and what all questions of such a dialogue have in
common (`asks_interpret`).
-/

namespace ChangeDesk.Dialogue

variable {Q Q' : Type} {A : Q → Type} {A' : Q' → Type} {α β : Type}

/-- A question and its answer. -/
abbrev Exchange (Q : Type) (A : Q → Type) : Type := (q : Q) × A q

/-- The exchanges and the result of a dialogue whose `i`-th question `q` is answered by
`answers i q`. -/
def converse (answers : Nat → (q : Q) → A q) : Dialogue Q A α → List (Exchange Q A) × α
  | .done a => ([], a)
  | .ask q next =>
    let (talk, a) := converse (fun i => answers (i + 1)) (next (answers 0 q))
    (⟨q, answers 0 q⟩ :: talk, a)

/-- The conversations that may be held with a dialogue. -/
inductive Held : Dialogue Q A α → List (Exchange Q A) → α → Prop where
  | done (a : α) : Held (.done a) [] a
  | ask {q : Q} {next : A q → Dialogue Q A α} (answer : A q) {talk : List (Exchange Q A)} {a : α}
      (rest : Held (next answer) talk a) : Held (.ask q next) (⟨q, answer⟩ :: talk) a

theorem held_converse (answers : Nat → (q : Q) → A q) (d : Dialogue Q A α) :
    d.Held (d.converse answers).1 (d.converse answers).2 := by
  induction d generalizing answers with
  | done a => exact .done a
  | ask q next ih => exact .ask (answers 0 q) (ih (answers 0 q) fun i => answers (i + 1))

/-- In a sequence the second part goes on counting where the first has stopped. -/
theorem converse_bind (answers : Nat → (q : Q) → A q) (d : Dialogue Q A α)
    (f : α → Dialogue Q A β) :
    ((d >>= f).converse answers).2 =
      ((f (d.converse answers).2).converse fun i =>
        answers (i + (d.converse answers).1.length)).2 := by
  induction d generalizing answers with
  | done a => rfl
  | ask q next ih => exact ih (answers 0 q) fun i => answers (i + 1)

theorem held_done {a b : α} {talk : List (Exchange Q A)} :
    (done a : Dialogue Q A α).Held talk b ↔ talk = [] ∧ b = a := by
  constructor
  · intro h
    cases h
    exact ⟨rfl, rfl⟩
  · rintro ⟨rfl, rfl⟩
    exact .done b

theorem held_ask {q : Q} {next : A q → Dialogue Q A α} {talk : List (Exchange Q A)} {a : α} :
    (ask q next).Held talk a ↔
      ∃ answer rest, talk = ⟨q, answer⟩ :: rest ∧ (next answer).Held rest a := by
  constructor
  · intro h
    cases h with
    | ask answer rest => exact ⟨answer, _, rfl, rest⟩
  · rintro ⟨answer, rest, rfl, h⟩
    exact .ask answer h

theorem held_pure {a b : α} {talk : List (Exchange Q A)} :
    (pure a : Dialogue Q A α).Held talk b ↔ talk = [] ∧ b = a := held_done

theorem held_question {q : Q} {talk : List (Exchange Q A)} {answer : A q} :
    (question q : Dialogue Q A (A q)).Held talk answer ↔ talk = [⟨q, answer⟩] := by
  constructor
  · intro h
    obtain ⟨given, rest, rfl, hrest⟩ := held_ask.1 h
    obtain ⟨rfl, rfl⟩ := held_done.1 hrest
    rfl
  · rintro rfl
    exact .ask answer (.done answer)

/-- A sequence is held one part after the other. -/
theorem held_bind {d : Dialogue Q A α} {f : α → Dialogue Q A β} {talk : List (Exchange Q A)}
    {b : β} :
    (d >>= f).Held talk b ↔
      ∃ a before after, d.Held before a ∧ (f a).Held after b ∧ talk = before ++ after := by
  show (d.bind f).Held talk b ↔ _
  induction d generalizing talk with
  | done a =>
    constructor
    · intro h
      exact ⟨a, [], talk, .done a, h, rfl⟩
    · rintro ⟨a', before, after, hbefore, hafter, rfl⟩
      obtain ⟨rfl, rfl⟩ := held_done.1 hbefore
      exact hafter
  | ask q next ih =>
    constructor
    · intro h
      obtain ⟨answer, rest, rfl, hrest⟩ := held_ask.1 h
      obtain ⟨a, before, after, hbefore, hafter, rfl⟩ := (ih answer).1 hrest
      exact ⟨a, ⟨q, answer⟩ :: before, after, .ask answer hbefore, hafter, rfl⟩
    · rintro ⟨a, before, after, hbefore, hafter, rfl⟩
      obtain ⟨answer, rest, rfl, hrest⟩ := held_ask.1 hbefore
      exact .ask answer ((ih answer).2 ⟨a, rest, after, hrest, hafter, rfl⟩)

theorem held_bind_pure {d : Dialogue Q A α} {f : α → β} {talk : List (Exchange Q A)} {b : β}
    (h : (d >>= fun a => pure (f a)).Held talk b) : ∃ a, d.Held talk a ∧ b = f a := by
  obtain ⟨a, before, after, hbefore, hend, rfl⟩ := held_bind.1 h
  obtain ⟨rfl, rfl⟩ := held_pure.1 hend
  rw [List.append_nil]
  exact ⟨a, hbefore, rfl⟩

/-- The exchanges of one level made of those of another: each question was answered by a
conversation of its own. -/
inductive Carried (answer : (q : Q) → Dialogue Q' A' (A q)) :
    List (Exchange Q A) → List (Exchange Q' A') → Prop where
  | nil : Carried answer [] []
  | cons {q : Q} {a : A q} {talk : List (Exchange Q A)} {before after : List (Exchange Q' A')}
      (first : (answer q).Held before a) (rest : Carried answer talk after) :
      Carried answer (⟨q, a⟩ :: talk) (before ++ after)

theorem held_interpret (answer : (q : Q) → Dialogue Q' A' (A q)) {d : Dialogue Q A α}
    {talk : List (Exchange Q' A')} {a : α} (h : (d.interpret answer).Held talk a) :
    ∃ inner, d.Held inner a ∧ Carried answer inner talk := by
  induction d generalizing talk with
  | done b =>
    obtain ⟨rfl, rfl⟩ := held_done.1 h
    exact ⟨[], .done a, .nil⟩
  | ask q next ih =>
    obtain ⟨b, before, after, hbefore, hafter, rfl⟩ := held_bind.1 h
    obtain ⟨inner, hinner, hcarried⟩ := ih b hafter
    exact ⟨⟨q, b⟩ :: inner, .ask b hinner, .cons hbefore hcarried⟩

theorem Carried.eq_nil {answer : (q : Q) → Dialogue Q' A' (A q)} {talk : List (Exchange Q' A')}
    (h : Carried answer [] talk) : talk = [] := by
  cases h
  rfl

theorem Carried.of_cons {answer : (q : Q) → Dialogue Q' A' (A q)} {q : Q} {a : A q}
    {inner : List (Exchange Q A)} {talk : List (Exchange Q' A')}
    (h : Carried answer (⟨q, a⟩ :: inner) talk) :
    ∃ before after, (answer q).Held before a ∧ Carried answer inner after ∧
      talk = before ++ after := by
  cases h with
  | cons first rest => exact ⟨_, _, first, rest, rfl⟩

theorem Carried.of_single {answer : (q : Q) → Dialogue Q' A' (A q)} {q : Q} {a : A q}
    {talk : List (Exchange Q' A')} (h : Carried answer [⟨q, a⟩] talk) :
    (answer q).Held talk a := by
  obtain ⟨before, after, hbefore, hafter, rfl⟩ := h.of_cons
  rw [hafter.eq_nil, List.append_nil]
  exact hbefore

/-- All questions of a dialogue, whatever the answers before them, have a property. -/
inductive Asks (P : Q → Prop) : Dialogue Q A α → Prop where
  | done (a : α) : Asks P (.done a)
  | ask {q : Q} {next : A q → Dialogue Q A α} (first : P q)
    (rest : ∀ answer, Asks P (next answer)) : Asks P (.ask q next)

variable {P : Q → Prop} {P' : Q' → Prop}

theorem asks_pure (a : α) : (pure a : Dialogue Q A α).Asks P := .done a

theorem asks_question {q : Q} (h : P q) : (question q : Dialogue Q A (A q)).Asks P :=
  .ask h fun answer => .done answer

theorem Asks.bind {d : Dialogue Q A α} {f : α → Dialogue Q A β} (first : d.Asks P)
    (next : ∀ a, (f a).Asks P) : (d >>= f).Asks P := by
  show (d.bind f).Asks P
  induction first with
  | done a => exact next a
  | ask first _ ih => exact .ask first ih

/-- If each question is answered by asking only what has a property, a whole dialogue asks nothing
else. -/
theorem asks_interpret {answer : (q : Q) → Dialogue Q' A' (A q)}
    (step : ∀ q, (answer q).Asks P') (d : Dialogue Q A α) : (d.interpret answer).Asks P' := by
  induction d with
  | done a => exact asks_pure a
  | ask q next ih => exact (step q).bind ih

theorem Asks.of_mem {d : Dialogue Q A α} (h : d.Asks P) (answers : Nat → (q : Q) → A q)
    {exchange : Exchange Q A} (mem : exchange ∈ (d.converse answers).1) : P exchange.1 := by
  induction h generalizing answers with
  | done a => cases mem
  | @ask q next first _ ih =>
    cases mem with
    | head => exact first
    | tail _ hrest => exact ih (answers 0 q) (fun i => answers (i + 1)) hrest

end ChangeDesk.Dialogue
