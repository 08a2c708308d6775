import ChangeDesk.Proofs.Session.Service

/-!
# Those who follow a session

Followers join a session at any time and read its feed whenever they like, each at a pace of its
own. What they are told is compared with a log of the edits that is kept beside the session: an
entry holds the edit, what the server was asked, and the result.

Main statements: the feed and the change after a series of acts (`Session.feed_acts`,
`Session.change_acts`), and what a follower hears that never falls behind by more than is kept
(`Audience.stream`).
-/

namespace ChangeDesk

namespace Feed

variable {α : Type}

theorem sendAll_append (f : Feed α) (as bs : List α) :
    f.sendAll (as ++ bs) = (f.sendAll as).sendAll bs := List.foldl_append

theorem length_kept_sendAll (f : Feed α) (h : f.kept.length ≤ capacity) (as : List α) :
    (f.sendAll as).kept.length ≤ capacity := by
  rw [kept_sendAll f h, List.length_take]
  exact Nat.min_le_left _ _

/-- A follower that has read the first `j` items since `f` reads the others. -/
theorem read_sendAll_from (f : Feed α) (h : f.kept.length ≤ capacity) (as : List α) {j : Nat}
    (hj : j ≤ as.length) (hc : as.length - j ≤ capacity) :
    (f.sendAll as).read ⟨f.sent + j⟩ = ((as.drop j).map Delivery.item, ⟨f.sent + as.length⟩) := by
  have hsplit : f.sendAll as = (f.sendAll (as.take j)).sendAll (as.drop j) := by
    rw [← sendAll_append, List.take_append_drop]
  have hfollow : (f.sendAll (as.take j)).follow = ⟨f.sent + j⟩ := by
    rw [follow, sent_sendAll, List.length_take_of_le hj]
  have hread := read_sendAll (f.sendAll (as.take j)) (f.length_kept_sendAll h _) (as.drop j)
    (by rwa [List.length_drop])
  rw [← hsplit, hfollow] at hread
  have hend : ((f.sendAll as).read ⟨f.sent + j⟩).2 = ⟨f.sent + as.length⟩ := by
    show Follower.mk (f.sendAll as).sent = _
    rw [sent_sendAll]
  exact Prod.ext hread hend

end Feed

/-! ### Acts and their log -/

/-- The account that an edit assigns, if it assigns one. -/
def SessionEdit.target : SessionEdit → Option Account
  | .assignee desired => desired.head?
  | _ => none

/-- The event that tells of an edit with a reply. -/
def EditReply.event (edit : SessionEdit) : EditReply → SessionEvent
  | .assignee _ => .assignee edit.target
  | .topic stored => .topic stored
  | .hashtags stored => .hashtags stored

theorem Confirms.event_eq {n : ChangeNumber} {edit : SessionEdit} {exchange : Remote.Exchange}
    {reply : EditReply} {event : SessionEvent} (h : Confirms n edit exchange reply event) :
    event = reply.event edit := by
  cases h <;> rfl

namespace Session

/-- What is done to a session: an edit, with the outcomes of its calls, or a change that takes the
place of the one there. -/
inductive Act where
  | edit (edit : SessionEdit) (answers : Remote.Answers)
  | replace (change : Change)

structure Entry where
  edit : SessionEdit
  talk : List Remote.Exchange
  result : Except RemoteFault EditReply

/-- The event of an edit that called the server and succeeded; others have none. -/
def Entry.event? (e : Entry) : Option SessionEvent :=
  match e.talk, e.result with
  | _ :: _, .ok reply => some (reply.event e.edit)
  | _, _ => none

def act (s : Session) : Act → Session
  | .edit edit answers => ((s.perform edit).converse answers).2.2
  | .replace change => s.replaceChange change

def acts (s : Session) (l : List Act) : Session := l.foldl act s

def log (s : Session) : List Act → List Entry
  | [] => []
  | .edit edit answers :: l =>
    let outcome := (s.perform edit).converse answers
    ⟨edit, outcome.1, outcome.2.1⟩ :: log outcome.2.2 l
  | .replace change :: l => log (s.replaceChange change) l

/-- The events of a series of acts. -/
def events (s : Session) (l : List Act) : List SessionEvent := (s.log l).filterMap Entry.event?

theorem log_append (s : Session) (l l' : List Act) :
    s.log (l ++ l') = s.log l ++ (s.acts l).log l' := by
  induction l generalizing s with
  | nil => rfl
  | cons a l ih =>
    cases a with
    | edit edit answers =>
      rw [List.cons_append, log, log, ih, List.cons_append]
      rfl
    | replace change =>
      rw [List.cons_append, log, log, ih]
      rfl

theorem events_append (s : Session) (l l' : List Act) :
    s.events (l ++ l') = s.events l ++ (s.acts l).events l' := by
  rw [events, log_append, List.filterMap_append]
  rfl

variable {s s' : Session} {talk : List Remote.Exchange}

theorem Performed.told {edit : SessionEdit} {result : Except RemoteFault EditReply}
    (hp : s.Performed edit talk result s') :
    s'.feed = s.feed.sendAll ([Entry.mk edit talk result].filterMap Entry.event?) ∧
      s'.change = ([Entry.mk edit talk result].filterMap Entry.event?).foldl
        (fun c e => e.write c) s.change := by
  cases hp with
  | refused why => exact ⟨rfl, rfl⟩
  | ignored one off => exact ⟨rfl, rfl⟩
  | agreed one on numbered same => exact ⟨rfl, rfl⟩
  | failed fault numbered needed => exact ⟨rfl, rfl⟩
  | confirmed numbered needed confirms =>
    obtain rfl := confirms.event_eq
    exact ⟨rfl, rfl⟩

theorem feed_act (s : Session) (a : Act) : (s.act a).feed = s.feed.sendAll (s.events [a]) := by
  cases a with
  | edit edit answers =>
    exact (performed_of_held (Dialogue.held_converse answers (s.perform edit))).told.1
  | replace change => rfl

/-- The feed after a series of acts: exactly their events were sent. -/
theorem feed_acts (s : Session) (l : List Act) : (s.acts l).feed = s.feed.sendAll (s.events l) := by
  induction l generalizing s with
  | nil => rfl
  | cons a l ih =>
    rw [← List.singleton_append, events_append, Feed.sendAll_append, ← feed_act]
    exact ih (s.act a)

/-- The change after a series of edits: exactly their events were written into it. -/
theorem change_acts (s : Session) {l : List Act} (h : ∀ c, .replace c ∉ l) :
    (s.acts l).change = (s.events l).foldl (fun c e => e.write c) s.change := by
  induction l generalizing s with
  | nil => rfl
  | cons a l ih =>
    have hrest : ∀ c, .replace c ∉ l := fun c hc => h c (List.mem_cons_of_mem _ hc)
    cases a with
    | replace change => exact absurd (List.mem_cons_self ..) (h change)
    | edit edit answers =>
      have hp := performed_of_held (Dialogue.held_converse answers (s.perform edit))
      have hfirst : (s.act (.edit edit answers)).change =
          (s.events [.edit edit answers]).foldl (fun c e => e.write c) s.change := hp.told.2
      rw [← List.singleton_append, events_append, List.foldl_append, ← hfirst]
      exact ih _ hrest

end Session

/-! ### Followers -/

/-- A follower and what it has heard. -/
structure Listener where
  follower : Follower
  heard : List (Delivery SessionEvent)

/-- A listener reads everything that is there for it. -/
def Listener.listen (f : Feed SessionEvent) (l : Listener) : Listener :=
  ⟨(f.read l.follower).2, l.heard ++ (f.read l.follower).1⟩

/-- A session and those who listen to it, in the order in which they joined. -/
structure Audience where
  session : Session
  listeners : List Listener

namespace Audience

/-- What happens next: something is done to the session, a listener joins, or the one in place `k`
reads. -/
inductive Move where
  | act (a : Session.Act)
  | join
  | listen (k : Nat)

def Move.act? : Move → Option Session.Act
  | .act a => some a
  | _ => none

/-- What is done to the session in a run. -/
def actsOf (moves : List Move) : List Session.Act := moves.filterMap Move.act?

def move (a : Audience) : Move → Audience
  | .act x => { a with session := a.session.act x }
  | .join => { a with listeners := a.listeners ++ [⟨a.session.feed.follow, []⟩] }
  | .listen k => { a with listeners := a.listeners.modify k (Listener.listen a.session.feed) }

def run (a : Audience) (moves : List Move) : Audience := moves.foldl move a

/-- How many events the listener in place `k` has still to read. -/
def behind (a : Audience) (k : Nat) : Nat :=
  match a.listeners[k]? with
  | some l => a.session.feed.sent - l.follower.read
  | none => 0

/-- The listener in place `k` joined at the feed `base` and has read the first events that were sent
since. -/
structure Follows (base : Feed SessionEvent) (events : List SessionEvent) (k : Nat)
    (a : Audience) : Prop where
  feed : a.session.feed = base.sendAll events
  listens : ∃ l j, a.listeners[k]? = some l ∧ j ≤ events.length ∧
    l.follower = ⟨base.sent + j⟩ ∧ l.heard = (events.take j).map Delivery.item

variable {base : Feed SessionEvent} {events : List SessionEvent} {k : Nat} {a : Audience}

theorem Follows.listen (h : Follows base events k a) (hbase : base.kept.length ≤ Feed.capacity)
    (timely : a.behind k ≤ Feed.capacity) :
    ∃ l, a.listeners[k]? = some l ∧
      l.listen a.session.feed = ⟨⟨base.sent + events.length⟩, events.map Delivery.item⟩ := by
  obtain ⟨⟨follower, heard⟩, j, hl, hj, rfl, rfl⟩ := h.listens
  refine ⟨_, hl, ?_⟩
  have hdue : events.length - j ≤ Feed.capacity := by
    simp only [behind, hl, h.feed, Feed.sent_sendAll] at timely
    omega
  have hread := base.read_sendAll_from hbase events hj hdue
  rw [Listener.listen, h.feed, hread, ← List.map_append, List.take_append_drop]

theorem Follows.move (h : Follows base events k a) (hbase : base.kept.length ≤ Feed.capacity)
    (timely : a.behind k ≤ Feed.capacity) (m : Move) :
    Follows base (events ++ a.session.events (actsOf [m])) k (a.move m) := by
  obtain ⟨l, j, hl, hj, hread, hheard⟩ := h.listens
  cases m with
  | act x =>
    constructor
    · show (a.session.act x).feed = _
      rw [Session.feed_act, h.feed, Feed.sendAll_append]
      rfl
    · refine ⟨l, j, hl, ?_, hread, ?_⟩
      · rw [List.length_append]
        omega
      · rw [List.take_append_of_le_length hj]
        exact hheard
  | join =>
    have hk := (List.getElem?_eq_some_iff.1 hl).1
    rw [show a.session.events (actsOf [.join]) = [] from rfl, List.append_nil]
    exact ⟨h.feed, l, j, (List.getElem?_append_left hk).trans hl, hj, hread, hheard⟩
  | listen i =>
    rw [show a.session.events (actsOf [.listen i]) = [] from rfl, List.append_nil]
    refine ⟨h.feed, ?_⟩
    by_cases hi : i = k
    · obtain ⟨l', hl', hlistened⟩ := h.listen hbase timely
      refine ⟨l'.listen a.session.feed, events.length, ?_, Nat.le_refl _, ?_, ?_⟩
      · show (a.listeners.modify i _)[k]? = _
        rw [hi, List.getElem?_modify_eq, hl']
        rfl
      · rw [hlistened]
      · rw [hlistened, List.take_length]
    · refine ⟨l, j, ?_, hj, hread, hheard⟩
      show (a.listeners.modify i _)[k]? = _
      rw [List.getElem?_modify_ne _ _ hi]
      exact hl

theorem session_move (a : Audience) (m : Move) :
    (a.move m).session = a.session.acts (actsOf [m]) := by
  cases m <;> rfl

theorem session_run (a : Audience) (moves : List Move) :
    (a.run moves).session = a.session.acts (actsOf moves) := by
  induction moves generalizing a with
  | nil => rfl
  | cons m moves ih =>
    rw [← List.singleton_append, actsOf, List.filterMap_append, Session.acts, List.foldl_append]
    show ((a.move m).run moves).session = _
    rw [ih, session_move]
    rfl

theorem Follows.run (h : Follows base events k a) (hbase : base.kept.length ≤ Feed.capacity)
    {moves : List Move}
    (timely : ∀ i ≤ moves.length, (a.run (moves.take i)).behind k ≤ Feed.capacity) :
    Follows base (events ++ a.session.events (actsOf moves)) k (a.run moves) := by
  induction moves generalizing a events with
  | nil =>
    rw [show a.session.events (actsOf []) = [] from rfl, List.append_nil]
    exact h
  | cons m moves ih =>
    have hnow : a.behind k ≤ Feed.capacity := timely 0 (Nat.zero_le _)
    have hrest := ih (h.move hbase hnow m) fun i hi => timely (i + 1) (Nat.succ_le_succ hi)
    rw [session_move, List.append_assoc, ← Session.events_append] at hrest
    rw [← List.singleton_append, actsOf, List.filterMap_append]
    exact hrest

/-- A session that no one follows yet. -/
def attend (s : Session) : Audience := ⟨s, []⟩

/-- What a listener hears over every run. It joins at any point of the run and never falls behind by
more than is kept, whoever else joins and whoever reads when. What it has heard is a beginning of
the events of the acts since it joined, and when it reads it has heard exactly these: one event for
each edit that called the server and succeeded, in the order of the edits. While no other change
takes the place of the one there, writing the events into the change that was there when it joined
gives the change that is there now. -/
theorem stream {s : Session} (opened : s.Opened) (before after : List Move)
    (timely : ∀ i ≤ after.length,
      (((attend s).run before).run (.join :: after.take i)).behind
        ((attend s).run before).listeners.length ≤ Feed.capacity) :
    let a := (attend s).run before
    let b := a.run (.join :: after)
    let events := a.session.events (actsOf after)
    (∃ l, b.listeners[a.listeners.length]? = some l ∧ l.heard <+: events.map Delivery.item ∧
      (l.listen b.session.feed).heard = events.map Delivery.item) ∧
    ((∀ c, .replace c ∉ actsOf after) →
      b.session.change = events.foldl (fun c e => e.write c) a.session.change) := by
  intro a b events
  have hkept : a.session.feed.kept.length ≤ Feed.capacity := by
    obtain ⟨change, config, rfl⟩ := opened.eq_start
    rw [session_run, Session.feed_acts]
    exact Feed.length_kept_sendAll _ (Nat.zero_le _) _
  have hjoined : Follows a.session.feed [] a.listeners.length (a.move .join) := by
    refine ⟨rfl, ⟨a.session.feed.follow, []⟩, 0, ?_, Nat.le_refl _, rfl, rfl⟩
    exact List.getElem?_concat_length
  have hfollows : Follows a.session.feed events a.listeners.length b :=
    hjoined.run hkept timely
  constructor
  · have hnow : b.behind a.listeners.length ≤ Feed.capacity := by
      have hlast := timely after.length (Nat.le_refl _)
      rwa [List.take_length] at hlast
    obtain ⟨l, hl, hlistened⟩ := hfollows.listen hkept hnow
    obtain ⟨l', j, hl', -, -, hheard⟩ := hfollows.listens
    obtain rfl := Option.some.inj (hl.symm.trans hl')
    refine ⟨l, hl, ?_, ?_⟩
    · rw [hheard]
      exact (List.take_prefix j events).map _
    · rw [hlistened]
  · intro hnone
    show ((a.move .join).run after).session.change = _
    rw [session_run]
    exact Session.change_acts a.session hnone

/-- Two listeners at their own pace, an edit that fails and one that changes nothing. -/
theorem stream_two :
    let change := { Change.blank with number := some ⟨42⟩ }
    let s := Session.start change .blank
    let answers (stored : String) : Remote.Answers := fun _ c => match c with
      | .setTopic _ _ => .ok stored
      | .editHashtags _ _ => .ok [stored]
      | _ => .error .unaddressable
    let before : List Move := [.act (.edit (.topic (some "a")) (answers "a")), .join]
    let after : List Move :=
      [.act (.edit (.addHashtag "t") (answers "t")), .listen 0,
        .act (.edit (.topic none) fun _ _ => .error .unaddressable), .listen 1,
        .act (.edit (.assignee []) (answers "")), .act (.edit (.topic (some "b")) (answers "c"))]
    let b := ((attend s).run before).run (.join :: after)
    (∃ l, b.listeners[1]? = some l ∧ (l.listen b.session.feed).heard =
      [.item (.hashtags ["t"]), .item (.topic "c")]) ∧
    b.session.change.topic = some "c" := by
  intro change s answers before after b
  have hplace : ((attend s).run before).listeners.length = 1 := by decide
  have timely : ∀ i ≤ after.length,
      (((attend s).run before).run (.join :: after.take i)).behind
        ((attend s).run before).listeners.length ≤ Feed.capacity := by
    decide
  have hevents : ((attend s).run before).session.events (actsOf after) =
      [.hashtags ["t"], .topic "c"] := by
    decide
  have hnone : ∀ c, .replace c ∉ actsOf after := by
    simp [after, actsOf, Move.act?]
  obtain ⟨⟨l, hl, -, hheard⟩, hchange⟩ := stream (.start change .blank) before after timely
  rw [hplace] at hl
  rw [hevents] at hheard hchange
  exact ⟨⟨l, hl, hheard⟩, by rw [show b.session.change = _ from hchange hnone]; rfl⟩

end Audience

end ChangeDesk
