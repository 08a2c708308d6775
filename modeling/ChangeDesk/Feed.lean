/-!
# Feeds

A feed passes on what is sent to it to everyone who follows it, and keeps the last items only. A
follower remembers how far it has read. One that has fallen too far behind is told how many items
it has lost, and goes on with those that are kept.

Main statement: a follower that is not too far behind reads exactly what was sent since it last
read (`read_sendAll`).
-/

namespace ChangeDesk

/-- The items last sent, the newest first, and how many were sent in all. -/
structure Feed (α : Type) where
  sent : Nat
  kept : List α
deriving DecidableEq, Repr

/-- How many items a follower has read or missed. -/
structure Follower where
  read : Nat
deriving DecidableEq, Repr

/-- What a follower reads. -/
inductive Delivery (α : Type) where
  | item (a : α)
  | lost (count : Nat)
deriving DecidableEq, Repr

namespace Feed

variable {α : Type}

/-- How many items are kept. -/
def capacity : Nat := 64

/-- A feed to which nothing was sent. -/
def empty : Feed α := ⟨0, []⟩

instance : Inhabited (Feed α) := ⟨empty⟩

/-- Sends an item. -/
def send (f : Feed α) (a : α) : Feed α := ⟨f.sent + 1, (a :: f.kept).take capacity⟩

/-- A follower of everything that will be sent. -/
def follow (f : Feed α) : Follower := ⟨f.sent⟩

/-- Reads everything that a follower has not yet read. -/
def read (f : Feed α) (r : Follower) : List (Delivery α) × Follower :=
  let due := f.sent - r.read
  let items := ((f.kept.take due).reverse).map Delivery.item
  (if due ≤ capacity then items else .lost (due - capacity) :: items, ⟨f.sent⟩)

/-- Sends items in order. -/
def sendAll (f : Feed α) (as : List α) : Feed α := as.foldl send f

theorem sent_sendAll (f : Feed α) (as : List α) : (f.sendAll as).sent = f.sent + as.length := by
  induction as generalizing f with
  | nil => rfl
  | cons a as ih =>
    show ((f.send a).sendAll as).sent = _
    rw [ih, List.length_cons]
    show f.sent + 1 + as.length = _
    omega

theorem kept_sendAll (f : Feed α) (h : f.kept.length ≤ capacity) (as : List α) :
    (f.sendAll as).kept = (as.reverse ++ f.kept).take capacity := by
  induction as generalizing f with
  | nil =>
    show f.kept = _
    rw [List.reverse_nil, List.nil_append, List.take_of_length_le h]
  | cons a as ih =>
    show ((f.send a).sendAll as).kept = _
    have hs : (f.send a).kept.length ≤ capacity := by
      rw [send, List.length_take]
      exact Nat.min_le_left _ _
    rw [ih _ hs, send, List.reverse_cons, List.append_assoc, List.singleton_append,
      List.take_append, List.take_append, List.take_take]
    congr 2
    omega

/-- Whoever is at most as far behind as items are kept reads all that was sent since. -/
theorem read_sendAll (f : Feed α) (h : f.kept.length ≤ capacity) (as : List α)
    (hc : as.length ≤ capacity) :
    ((f.sendAll as).read f.follow).1 = as.map Delivery.item := by
  have hd : (f.sendAll as).sent - f.follow.read = as.length := by
    rw [sent_sendAll]
    exact Nat.add_sub_cancel_left f.sent as.length
  have hk : ((f.sendAll as).kept.take as.length).reverse = as := by
    rw [kept_sendAll f h, List.take_take, Nat.min_eq_left hc,
      List.take_append_of_le_length (by simp), List.take_of_length_le (by simp),
      List.reverse_reverse]
  unfold read
  simp only [hd, hk, if_pos hc]

end Feed

end ChangeDesk
