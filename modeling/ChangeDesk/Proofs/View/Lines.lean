import ChangeDesk.Proofs.Text.Number
import ChangeDesk.View.Report

/-!
# The lines of a report

A report says each fact on a line of its own, so the facts of a change tell how many lines there
are. But names, topics, hashtags, commits, subjects and links are put into their lines as the
documents have them: a line feed in one of them begins another line, which stands in the report like
a fact. Only the message of the certificate is brought onto one line.

Main statement: how many lines a report has (`Report.lineCount_text`).
-/

namespace ChangeDesk

namespace Text

/-- How many line feeds there are in a text. -/
def feeds (s : String) : Nat := s.toList.count '\n'

/-- How many line feeds there are in some texts together. -/
def allFeeds : List String → Nat
  | [] => 0
  | s :: ss => feeds s + allFeeds ss

/-- How many lines a text has. -/
def lineCount (s : String) : Nat := (s.toList.splitOn '\n').length

variable {α : Type} {s label : String} {ss : List String}

theorem length_splitOn (c : Char) (cs : List Char) : (cs.splitOn c).length = cs.count c + 1 := by
  rw [List.splitOn_eq_splitOnP]
  induction cs with
  | nil => rfl
  | cons d cs ih =>
    rw [List.splitOnP_cons_eq_if_modifyHead, List.count_cons]
    split
    · rw [List.length_cons, ih]
    · rw [List.length_modifyHead, ih, Nat.add_zero]

theorem feeds_eq_zero : feeds s = 0 ↔ '\n' ∉ s.toList := List.count_eq_zero

theorem feeds_append (s t : String) : feeds (s ++ t) = feeds s + feeds t := by
  rw [feeds, String.toList_append, List.count_append]
  rfl

/-- What stands around a text does not count if it has no line feed. -/
theorem feeds_framed {front back : String} (hfront : feeds front = 0) (hback : feeds back = 0)
    (s : String) : feeds (front ++ s ++ back) = feeds s := by
  rw [feeds_append, feeds_append, hfront, hback, Nat.zero_add, Nat.add_zero]

theorem feeds_label (h : feeds label = 0) (s : String) : feeds (label ++ s) = feeds s := by
  rw [feeds_append, h, Nat.zero_add]

theorem feeds_toDigits (n : Nat) : feeds (String.ofList (Nat.toDigits 10 n)) = 0 := by
  rw [feeds_eq_zero, String.toList_ofList]
  exact not_mem_toDigits rfl n

theorem allFeeds_nil : allFeeds [] = 0 := rfl

theorem allFeeds_cons (s : String) (ss : List String) :
    allFeeds (s :: ss) = feeds s + allFeeds ss := rfl

theorem allFeeds_append (ss ts : List String) :
    allFeeds (ss ++ ts) = allFeeds ss + allFeeds ts := by
  induction ss with
  | nil => exact (Nat.zero_add _).symm
  | cons s ss ih => rw [List.cons_append, allFeeds_cons, allFeeds_cons, ih, Nat.add_assoc]

theorem allFeeds_eq_zero : allFeeds ss = 0 ↔ ∀ s ∈ ss, '\n' ∉ s.toList := by
  induction ss with
  | nil => simp [allFeeds_nil]
  | cons s ss ih =>
    rw [allFeeds_cons, Nat.add_eq_zero_iff, feeds_eq_zero, ih, List.forall_mem_cons]

theorem allFeeds_map {f : α → String} {texts : α → List String}
    (h : ∀ a, feeds (f a) = allFeeds (texts a)) (as : List α) :
    allFeeds (as.map f) = allFeeds (as.flatMap texts) := by
  induction as with
  | nil => rfl
  | cons a as ih =>
    rw [List.map_cons, List.flatMap_cons, allFeeds_cons, allFeeds_append, h, ih]

/-- What separates texts counts between any two of them. -/
theorem feeds_intercalate (t s : String) (ss : List String) :
    feeds (t.intercalate (s :: ss)) = allFeeds (s :: ss) + ss.length * feeds t := by
  -- a text is joined to the first of the others, so the first one is not fixed
  induction ss generalizing s with
  | nil =>
    rw [String.intercalate_singleton, List.length_nil, Nat.zero_mul]
    rfl
  | cons u ss ih =>
    rw [String.intercalate_cons_cons, feeds_append, feeds_append, ih, allFeeds_cons s,
      List.length_cons, Nat.succ_mul]
    omega

theorem lineCount_intercalate (h : ss ≠ []) :
    lineCount ("\n".intercalate ss) = ss.length + allFeeds ss := by
  obtain ⟨s, ss, rfl⟩ := List.exists_cons_of_ne_nil h
  have hfeed : feeds "\n" = 1 := by decide
  show (List.splitOn '\n' ("\n".intercalate (s :: ss)).toList).length = _
  rw [length_splitOn]
  show feeds ("\n".intercalate (s :: ss)) + 1 = _
  rw [feeds_intercalate, hfeed, List.length_cons]
  omega

end Text

open Text (feeds allFeeds lineCount feeds_label feeds_framed feeds_append allFeeds_nil
  allFeeds_cons allFeeds_append)

namespace Report

variable {c : Change} {m : Metadata}

/-- How many facts a report tells: the change itself, its owner, its topic and its hashtags, and
what there is of the others; lists of parents and links have a heading. -/
def facts (c : Change) (m : Metadata) : Nat :=
  4 + m.uploader.toList.length + m.author.toList.length + m.committer.toList.length +
    m.strategy.toList.length + c.cherryPickOf.toList.length + m.verdict.toList.length +
    (if m.assigneeEnabled then 1 else 0) + (if m.showsRequirements then 1 else 0) +
    (if m.parents = [] then 0 else 1 + m.parents.length) +
    (match m.webLinks with
      | none => 0
      | some links => 1 + links.length)

/-- The texts of the documents that a report shows as they are. -/
def shown (c : Change) (m : Metadata) : List String :=
  [c.owner.displayName] ++ (m.uploader.toList.map Account.displayName) ++
    (m.author.toList.map Account.displayName) ++ (m.committer.toList.map Account.displayName) ++
    (if m.assigneeEnabled then c.assignee.toList.map Account.displayName else []) ++
    c.shownTopic?.toList ++ c.hashtags.getD [] ++
    (m.parents.flatMap fun p => [String.ofList (p.commit.toList.take 7), p.subject]) ++
    ((m.webLinks.getD []).flatMap fun l => [l.name, l.url])

/-! ### Lines that are put together -/

theorem length_lines (picked : m.showsCherryPick = c.cherryPickOf.isSome) :
    (lines c m).length = facts c m := by
  have hassignee : (assigneeLine c m).length = if m.assigneeEnabled then 1 else 0 := by
    unfold assigneeLine
    split <;> rfl
  have hpicked : (cherryPickLine c m).length = c.cherryPickOf.toList.length := by
    unfold cherryPickLine
    rw [picked]
    cases c.cherryPickOf <;> rfl
  have hparents : (parentLines m).length = if m.parents = [] then 0 else 1 + m.parents.length := by
    unfold parentLines
    split
    · rename_i hnil
      rw [if_pos hnil]
      rfl
    · rename_i hcons
      rw [if_neg hcons, List.length_cons, List.length_map, Nat.add_comm]
  have hlinks : (linkLines m).length =
      match m.webLinks with
      | none => 0
      | some links => 1 + links.length := by
    unfold linkLines
    cases m.webLinks with
    | none => rfl
    | some links =>
      dsimp only
      rw [List.length_cons, List.length_map, Nat.add_comm]
  have hrequirements : (if m.showsRequirements then ["Submit requirements apply"] else []).length =
      if m.showsRequirements then 1 else 0 := by
    split <;> rfl
  simp only [lines, personLine, certificateLine, List.length_append, List.length_map,
    List.length_cons, List.length_nil, hassignee, hpicked, hparents, hlinks, hrequirements]
  unfold facts
  omega

/-! ### Line feeds in the lines -/

theorem feeds_number (n : ChangeNumber) : feeds n.text = 0 := Text.feeds_toDigits n.val.toNat

theorem feeds_heading (c : Change) : feeds (heading c) = 0 := by
  have htitle : feeds c.status.title = 0 := by
    cases c.status <;> decide
  unfold heading
  cases c.number with
  | none =>
    show feeds ("Change (" ++ c.status.title ++ ")") = 0
    rw [feeds_framed (by decide) (by decide), htitle]
  | some n =>
    show feeds ("Change " ++ n.text ++ " (" ++ c.status.title ++ ")") = 0
    rw [feeds_append, feeds_append, feeds_framed (by decide) (by decide), feeds_number, htitle]
    decide

/-- Of the line of a field that may be edited only the value counts. -/
theorem feeds_field {label : String} (h : feeds label = 0) (value : String) (readOnly : Bool) :
    feeds (label ++ value ++ " [" ++ access readOnly ++ "]") = feeds value := by
  have haccess : feeds (access readOnly) = 0 := by
    cases readOnly <;> decide
  rw [feeds_append, feeds_append, feeds_framed h (by decide), haccess]
  exact Nat.add_zero _

theorem feeds_personLine (label : String) (h : feeds label = 0) (account : Option Account) :
    allFeeds (personLine label account) = allFeeds (account.toList.map Account.displayName) := by
  cases account with
  | none => rfl
  | some a =>
    show allFeeds [label ++ a.displayName] = allFeeds [a.displayName]
    rw [allFeeds_cons, allFeeds_cons, feeds_label h]

theorem feeds_assigneeLine (c : Change) (m : Metadata) :
    allFeeds (assigneeLine c m) =
      allFeeds (if m.assigneeEnabled then c.assignee.toList.map Account.displayName else []) := by
  unfold assigneeLine
  split
  · show allFeeds [_] = _
    rw [allFeeds_cons]
    refine (congrArg (· + allFeeds []) (feeds_field (by decide) _ _)).trans ?_
    cases c.assignee with
    | none => decide
    | some a => exact (allFeeds_cons a.displayName []).symm
  · rfl

theorem feeds_topicLine (c : Change) (m : Metadata) :
    feeds (topicLine c m) = allFeeds c.shownTopic?.toList := by
  refine (feeds_field (by decide) _ _).trans ?_
  cases c.shownTopic? with
  | none => decide
  | some topic => exact (allFeeds_cons topic []).symm

theorem feeds_hashtagsLine (c : Change) (m : Metadata) :
    feeds (hashtagsLine c m) = allFeeds (c.hashtags.getD []) := by
  refine (feeds_field (by decide) _ _).trans ?_
  cases c.hashtags.getD [] with
  | nil => decide
  | cons tag tags =>
    have hcomma : feeds ", " = 0 := by decide
    exact (Text.feeds_intercalate ", " tag tags).trans (by rw [hcomma, Nat.mul_zero, Nat.add_zero])

theorem feeds_cherryPickLine (c : Change) (m : Metadata) : allFeeds (cherryPickLine c m) = 0 := by
  unfold cherryPickLine
  split
  · cases c.cherryPickOf with
    | none => rfl
    | some n =>
      show allFeeds ["Cherry-pick of: " ++ n.text ++ _] = 0
      rw [allFeeds_cons, feeds_append, feeds_label (by decide), feeds_number]
      cases c.cherryPickOfPatchSet with
      | none => decide
      | some p =>
        show 0 + feeds ("," ++ String.ofList (Nat.toDigits 10 p.toNat)) + 0 = 0
        rw [feeds_label (by decide), Text.feeds_toDigits]
  · rfl

theorem feeds_onOneLine (s : String) : feeds (onOneLine s) = 0 := by
  rw [Text.feeds_eq_zero, onOneLine, String.toList_ofList, List.mem_map]
  rintro ⟨c, -, hc⟩
  split at hc
  · cases hc
  · rename_i hne
    exact hne hc

theorem feeds_certificateLine (m : Metadata) : allFeeds (certificateLine m) = 0 := by
  unfold certificateLine
  cases m.verdict with
  | none => rfl
  | some v =>
    have htrust : feeds v.trust.name = 0 := by
      cases v.trust <;> decide
    show allFeeds ["Push cert:  [" ++ v.trust.name ++ "] " ++ onOneLine v.message] = 0
    rw [allFeeds_cons, feeds_append, feeds_framed (by decide) (by decide), htrust,
      feeds_onOneLine]
    rfl

theorem feeds_parentLines (h : feeds m.parentsLabel = 0) :
    allFeeds (parentLines m) =
      allFeeds
        (m.parents.flatMap fun p => [String.ofList (p.commit.toList.take 7), p.subject]) := by
  unfold parentLines
  split
  · rename_i hnil
    rw [hnil]
    rfl
  · have hheading : feeds (m.parentsLabel ++ ":") = 0 := by
      rw [feeds_append, h]
      decide
    rw [allFeeds_cons]
    refine (congrArg (· + _) hheading).trans ?_
    rw [Nat.zero_add]
    refine Text.allFeeds_map (fun p => ?_) m.parents
    show feeds ("  " ++ _ ++ " " ++ p.subject) = _
    rw [feeds_append, feeds_framed (by decide) (by decide), allFeeds_cons, allFeeds_cons]
    rfl

theorem feeds_linkLines (m : Metadata) :
    allFeeds (linkLines m) =
      allFeeds ((m.webLinks.getD []).flatMap fun l => [l.name, l.url]) := by
  unfold linkLines
  cases m.webLinks with
  | none => rfl
  | some links =>
    have hheading : feeds "Links:" = 0 := by decide
    dsimp only
    rw [allFeeds_cons, hheading, Nat.zero_add]
    refine Text.allFeeds_map (fun l => ?_) links
    show feeds ("  " ++ l.name ++ ": " ++ l.url) = _
    rw [feeds_append, feeds_framed (by decide) (by decide), allFeeds_cons, allFeeds_cons]
    rfl

/-- A line feed in one of the lines is one of the texts that are shown. -/
theorem feeds_lines (heading : feeds m.parentsLabel = 0)
    (strategy : ∀ s ∈ m.strategy, feeds s = 0) :
    allFeeds (lines c m) = allFeeds (shown c m) := by
  have howner : feeds s!"Owner:      {c.owner.displayName}" = feeds c.owner.displayName :=
    feeds_label (by decide) _
  have hstrategy : allFeeds (m.strategy.toList.map fun s => s!"Strategy:   {s}") = 0 := by
    cases hs : m.strategy with
    | none => rfl
    | some s =>
      show allFeeds ["Strategy:   " ++ s] = 0
      rw [allFeeds_cons, feeds_label (by decide), strategy s hs]
      rfl
  have hrequirements :
      allFeeds (if m.showsRequirements then ["Submit requirements apply"] else []) = 0 := by
    split <;> decide
  have huploader := feeds_personLine "Uploader:   " (by decide) m.uploader
  have hauthor := feeds_personLine "Author:     " (by decide) m.author
  have hcommitter := feeds_personLine "Committer:  " (by decide) m.committer
  simp only [lines, shown, allFeeds_append, allFeeds_cons, feeds_heading, howner, huploader,
    hauthor, hcommitter, feeds_assigneeLine, hstrategy, feeds_topicLine, feeds_hashtagsLine,
    feeds_cherryPickLine, feeds_certificateLine, feeds_parentLines heading, feeds_linkLines,
    hrequirements, allFeeds_nil]
  omega

/-! ### The report of a change -/

theorem feeds_parentsLabel (parents : List Parent) : feeds (parentsLabel parents) = 0 := by
  unfold parentsLabel
  split <;> decide

theorem feeds_shownStrategy {s : String} (h : s ∈ c.shownStrategy?) : feeds s = 0 := by
  unfold Change.shownStrategy? at h
  split at h
  · cases h
  · obtain ⟨kind, -, rfl⟩ := Option.map_eq_some_iff.1 h
    cases kind <;> decide

/-- How many lines the report on a change has: one for each fact, and one more for each line feed
in the texts that are shown as they are. So it has a line for each fact exactly if there is no line
feed in any of them. -/
theorem lineCount_text (c : Change) (config : ServerConfig) (view : ViewOptions) :
    let m := Metadata.ofChange c config view
    lineCount (text c m) = facts c m + allFeeds (shown c m) ∧
      (lineCount (text c m) = facts c m ↔ ∀ s ∈ shown c m, '\n' ∉ s.toList) := by
  intro m
  have hlength : (lines c m).length = facts c m := length_lines rfl
  have hfeeds : allFeeds (lines c m) = allFeeds (shown c m) :=
    feeds_lines (feeds_parentsLabel m.parents) fun s hs => feeds_shownStrategy hs
  have hcount : lineCount (text c m) = facts c m + allFeeds (shown c m) := by
    rw [← hlength, ← hfeeds]
    exact Text.lineCount_intercalate (List.cons_ne_nil _ _)
  refine ⟨hcount, ?_⟩
  rw [hcount, ← Text.allFeeds_eq_zero]
  omega

/-- The owner has a name in two lines, the second like that of a topic. -/
theorem lineCount_text_forged :
    let owner := { Account.blank with name := some "Ann\nTopic:      x [editable]" }
    let c := { Change.blank with owner := owner }
    let m := Metadata.ofChange c .blank ⟨false, false, false⟩
    text c m = "Change (New)\nOwner:      Ann\nTopic:      x [editable]\n" ++
        "Topic:      none [read-only]\nHashtags:   none [read-only]" ∧
      facts c m = 4 ∧ lineCount (text c m) = 5 := by
  decide +kernel

end Report

end ChangeDesk
