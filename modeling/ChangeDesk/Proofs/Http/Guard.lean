import ChangeDesk.Proofs.Document.RoundTrip
import ChangeDesk.Proofs.Json.Reading
import ChangeDesk.Proofs.Session.Replies

/-!
# Responses with the guard

Servers put the guard on a line of its own in front of every document. A response with the guard is
read like the one without it if the document begins, after any space, with a character that is no
blank. Otherwise the two part: whether a body is blank is asked before the guard is taken off, and
of the blanks in front of a document only space is passed over behind the guard.

Main statement: the answer to a call in a response with the guard (`Client.answer_guarded`).
-/

namespace ChangeDesk

namespace Json

open Text (isBlank trimStart)

variable {cs : List Char}

/-- The text begins, after any space, with a character that is no blank. -/
def Bare (cs : List Char) : Prop := ∃ c r, skipSpace cs = c :: r ∧ isBlank c = false

theorem isBlank_of_isSpace {c : Char} (h : isSpace c = true) : isBlank c = true := by
  simp only [isSpace, Bool.or_eq_true, beq_iff_eq] at h
  rcases h with ((rfl | rfl) | rfl) | rfl <;> rfl

theorem trimStart_skipSpace (cs : List Char) : trimStart (skipSpace cs) = trimStart cs := by
  obtain ⟨sp, hs, hcs⟩ := exists_space cs
  have hblank : ∀ c ∈ sp, isBlank c = true := fun c hc => isBlank_of_isSpace (hs c hc)
  rw [← Text.trimStart_append_of_blank hblank, ← hcs]

theorem Bare.trimStart_eq (h : Bare cs) : trimStart cs = skipSpace cs := by
  obtain ⟨c, r, hskip, hc⟩ := h
  rw [← trimStart_skipSpace, hskip, Text.trimStart_cons hc]

theorem Bare.exists_not_blank (h : Bare cs) : ∃ c ∈ cs, isBlank c = false := by
  obtain ⟨c, r, hskip, hc⟩ := h
  refine ⟨c, (skipSpace_suffix cs).subset ?_, hc⟩
  rw [hskip]
  exact List.mem_cons_self ..

/-- A text that does not begin with a value is read as a gap. -/
theorem Node.read_of_not_bare (h : ¬ Bare cs) :
    read cs = (.gap (.noValue (skipSpace cs).isEmpty), []) := by
  have hopens : ∀ {c r}, skipSpace cs = c :: r → ¬ Value.Opens c :=
    fun hskip hc => h ⟨_, _, hskip, hc.not_blank.1⟩
  rw [read, readValue]
  split
  case h_1 hskip =>
    rw [hskip]
    rfl
  case h_8 c r _ _ _ _ _ _ hskip =>
    have hstart : ¬ (c = '-' ∨ c.isDigit = true) := fun hc => hopens hskip (.inr hc)
    rw [if_neg hstart, hskip]
    rfl
  all_goals
    rename_i hskip
    exact absurd (.inl (by decide)) (hopens hskip)

namespace Document

variable {α : Type} {c : Codec α} {s : String}

theorem payload_of_unguarded (h : ¬ guardChars <+: trimStart cs) : payload cs = trimStart cs := by
  rw [payload]
  split
  · rename_i r hr
    exact absurd ⟨r, hr.symm⟩ h
  · rfl

theorem payload_guardLine (s : String) : payload (")]\x7d'\n" ++ s).toList = '\n' :: s.toList := by
  rw [String.toList_append]
  exact payload_guard _

theorem read_guardLine (s : String) :
    Node.read (payload (")]\x7d'\n" ++ s).toList) = Node.read s.toList := by
  have hline : Space ['\n'] := by simp [Space, isSpace]
  rw [payload_guardLine]
  exact Node.read_space hline s.toList

/-- In front of a bare text the guard makes no difference. -/
theorem decode_guardLine (hbare : Bare s.toList) (hguard : ¬ guardChars <+: trimStart s.toList) :
    decode c (")]\x7d'\n" ++ s) = decode c s := by
  have hplain : Node.read (payload s.toList) = Node.read s.toList := by
    rw [payload_of_unguarded hguard, hbare.trimStart_eq, Node.read_skipSpace]
  rw [decode, decode, readWhole, readWhole, read_guardLine, hplain]

/-- Behind the guard, anything but a bare text is no document. -/
theorem decode_guardLine_of_not_bare (hbare : ¬ Bare s.toList) {fault : Fault}
    (hgap : c.read levels (.gap (.noValue (skipSpace s.toList).isEmpty)) = .error fault) :
    decode c (")]\x7d'\n" ++ s) = .error fault := by
  rw [decode, readWhole, read_guardLine, Node.read_of_not_bare hbare]
  show (c.read levels (.gap (.noValue (skipSpace s.toList).isEmpty)) >>= _) = _
  rw [hgap]
  rfl

end Document

end Json

namespace Http

open Text (allBlank trimStart)

/-- The response with the guard on a line of its own in front of its body. -/
def Response.guarded (r : Response) : Response := { r with body := ")]\x7d'\n" ++ r.body }

namespace Response

variable {r : Response}

theorem allBlank_guarded (r : Response) : allBlank r.guarded.body = false := by
  have hbody : r.guarded.body.toList = ')' :: (']' :: '\x7d' :: '\'' :: '\n' :: r.body.toList) :=
    String.toList_append
  rw [allBlank, hbody, List.all_cons]
  rfl

theorem void_guarded : r.guarded.Void ↔ r.status = 204 := by
  constructor
  · intro h
    rcases h with h | h
    · exact h
    · rw [allBlank_guarded] at h
      cases h
  · exact .inl

theorem allBlank_eq_false (h : Json.Bare r.body.toList) : allBlank r.body = false := by
  obtain ⟨c, hmem, hc⟩ := h.exists_not_blank
  rw [allBlank, List.all_eq_false]
  exact ⟨c, hmem, by simp [hc]⟩

end Response

namespace Client

variable {α : Type} {codec : Json.Codec α} {call : Call} {r : Response}

theorem readResponse_guarded (hr : r.Success)
    (hguard : ¬ Json.Document.guardChars <+: trimStart r.body.toList)
    (h : r.status = 204 ∨ Json.Bare r.body.toList) :
    readResponse codec r.guarded = readResponse codec r := by
  by_cases hcontent : r.status = 204
  · rw [readResponse_void codec hr (.inl hcontent)]
    exact readResponse_void codec (show r.guarded.Success from hr) (.inl hcontent)
  · have hbare := h.resolve_left hcontent
    have hblank := Response.allBlank_eq_false hbare
    have hdecode : Json.Document.decode codec r.guarded.body =
        Json.Document.decode codec r.body := Json.Document.decode_guardLine hbare hguard
    have hstatus : r.guarded.status = r.status := rfl
    have hrange : ¬ (r.status < 200 ∨ 300 ≤ r.status) := by
      unfold Response.Success at hr
      omega
    rw [readResponse, readResponse, r.allBlank_guarded, hblank, hdecode, hstatus, if_neg hrange,
      if_neg hrange]

theorem readResponse_guarded_of_not_bare (hr : r.Success) (hcontent : r.status ≠ 204)
    (hbare : ¬ Json.Bare r.body.toList) {fault : Json.Fault}
    (hgap : codec.read Json.Document.levels
      (.gap (.noValue (Json.skipSpace r.body.toList).isEmpty)) = .error fault) :
    readResponse codec r.guarded = .error (.undecodable fault) :=
  have hcarries : ¬ r.guarded.Void := fun hvoid => hcontent (Response.void_guarded.1 hvoid)
  readResponse_undecodable codec (show r.guarded.Success from hr) hcarries
    (Json.Document.decode_guardLine_of_not_bare hbare hgap)

/-- An answer is made of what a response carries. -/
theorem readAnswer_congr {r' : Response}
    (h : ∀ {α : Type} (codec : Json.Codec α), readResponse codec r = readResponse codec r')
    (call : Call) : readAnswer call r = readAnswer call r' := by
  cases call <;> simp only [readAnswer, h] <;> rfl

theorem answer_congr {r' : Response} (c : Client) (h : readAnswer call r = readAnswer call r') :
    ((c.answer call).converse fun _ _ => .ok r).2 =
      ((c.answer call).converse fun _ _ => .ok r').2 := by
  unfold Client.answer
  split
  · rfl
  · split
    · rfl
    · exact h

theorem readAnswer_guarded_of_not_bare (hr : r.Success) (hcontent : r.status ≠ 204)
    (hbare : ¬ Json.Bare r.body.toList) (call : Call) :
    readAnswer call r.guarded =
      .error (.undecodable (Json.Gap.noValue (Json.skipSpace r.body.toList).isEmpty).fault) := by
  cases call with
  | getConfig =>
    rw [readAnswer, readResponse_guarded_of_not_bare hr hcontent hbare rfl]
    rfl
  | getChange n =>
    rw [readAnswer, readResponse_guarded_of_not_bare hr hcontent hbare rfl]
    rfl
  | getAssignee n =>
    exact readResponse_guarded_of_not_bare hr hcontent hbare rfl
  | setAssignee n account =>
    rw [readAnswer, readResponse_guarded_of_not_bare hr hcontent hbare rfl]
    rfl
  | clearAssignee n =>
    rw [readAnswer, readResponse_guarded_of_not_bare hr hcontent hbare rfl]
    rfl
  | setTopic n topic =>
    rw [readAnswer, readResponse_guarded_of_not_bare hr hcontent hbare rfl]
    rfl
  | editHashtags n edit =>
    rw [readAnswer, readResponse_guarded_of_not_bare hr hcontent hbare rfl]
    rfl

/-- A blank body is never a fault of a document. -/
theorem readAnswer_blank_ne (hr : r.Success) (hblank : allBlank r.body = true) (call : Call)
    (fault : Json.Fault) : readAnswer call r ≠ .error (.undecodable fault) := by
  have hvoid : ∀ {α : Type} (codec : Json.Codec α), readResponse codec r = .ok none :=
    fun codec => readResponse_void codec hr (.inr hblank)
  cases call <;> simp only [readAnswer, hvoid] <;> nofun

/-- The guard in front of a body makes no difference to the answer where there is no content, or
where the body begins, after any space, with a character that is no blank. In front of any other
body it makes a fault, also of a blank body, which stands for a value when it comes alone. -/
theorem answer_guarded (c : Client) (call : Call) (r : Response) (hr : r.Success)
    (hguard : ¬ Json.Document.guardChars <+: trimStart r.body.toList) :
    (r.status = 204 ∨ Json.Bare r.body.toList →
      ((c.answer call).converse fun _ _ => .ok r.guarded).2 =
        ((c.answer call).converse fun _ _ => .ok r).2) ∧
    (r.status ≠ 204 → ¬ Json.Bare r.body.toList →
      readAnswer call r.guarded =
        .error (.undecodable (Json.Gap.noValue (Json.skipSpace r.body.toList).isEmpty).fault) ∧
      (allBlank r.body = true → readAnswer call r ≠ readAnswer call r.guarded)) := by
  constructor
  · intro h
    have hanswer : readAnswer call r.guarded = readAnswer call r :=
      readAnswer_congr (fun codec => readResponse_guarded hr hguard h) call
    exact answer_congr c hanswer
  · intro hcontent hbare
    have hfault := readAnswer_guarded_of_not_bare hr hcontent hbare call
    refine ⟨hfault, ?_⟩
    intro hblank
    rw [hfault]
    exact readAnswer_blank_ne hr hblank call _

/-- An account behind a space. -/
theorem answer_guarded_account :
    let c : Client := ⟨"https://r", none⟩
    let r : Response := ⟨200, " \x7b\"email\":\"a@b\"\x7d"⟩
    r.Success ∧ ¬ Json.Document.guardChars <+: trimStart r.body.toList ∧
      Json.Bare r.body.toList ∧
      ((c.answer (.getAssignee ⟨42⟩)).converse fun _ _ => .ok r.guarded).2 =
        ((c.answer (.getAssignee ⟨42⟩)).converse fun _ _ => .ok r).2 := by
  intro c r
  have hr : r.Success := ⟨by decide, by decide⟩
  have hguard : ¬ Json.Document.guardChars <+: trimStart " \x7b\"email\":\"a@b\"\x7d".toList := by
    decide +kernel
  have hskip : Json.skipSpace " \x7b\"email\":\"a@b\"\x7d".toList =
      '\x7b' :: "\"email\":\"a@b\"\x7d".toList := by decide +kernel
  have hbare : Json.Bare r.body.toList := ⟨'\x7b', _, hskip, rfl⟩
  have houtcome := (answer_guarded c (.getAssignee ⟨42⟩) r hr hguard).1 (.inr hbare)
  exact ⟨hr, hguard, hbare, houtcome⟩

/-- A topic that is taken away: an empty body says so, with the guard in front it is a fault. A
topic behind a blank that is no space is read, with the guard in front it is not. -/
theorem answer_guarded_differs :
    let empty : Response := ⟨200, ""⟩
    let spaced : Response := ⟨200, "\u00a0\"x\""⟩
    readAnswer (.setTopic ⟨42⟩ none) empty = .ok "" ∧
    readAnswer (.setTopic ⟨42⟩ none) empty.guarded = .error (.undecodable .endInValue) ∧
    readAnswer (.setTopic ⟨42⟩ (some "x")) spaced = .ok "x" ∧
    readAnswer (.setTopic ⟨42⟩ (some "x")) spaced.guarded = .error (.undecodable .noValue) := by
  intro empty spaced
  -- only space is passed over behind the guard, and this blank is none
  have hlist : "\u00a0\"x\"".toList = ['\u00a0', '"', 'x', '"'] := by decide +kernel
  have hempty : ¬ Json.Bare empty.body.toList := by
    rintro ⟨c, r, hskip, -⟩
    cases hskip
  have hspaced : ¬ Json.Bare spaced.body.toList := by
    rintro ⟨c, r, hskip, hc⟩
    rw [hlist] at hskip
    cases hskip
    cases hc
  have hx : Json.Document.decode Json.Codec.text spaced.body = .ok "x" := by
    rw [Json.Document.decode, hlist]
    rfl
  have hblank : allBlank spaced.body = false := by
    rw [allBlank, hlist]
    rfl
  have hread : readResponse Json.Codec.text spaced = .ok (some "x") :=
    readResponse_some.2 ⟨by decide, ⟨by decide, by decide⟩, hblank, hx⟩
  refine ⟨?_, ?_, ?_, ?_⟩
  · rw [readAnswer, readResponse_void _ ⟨by decide, by decide⟩ (.inr rfl)]
    rfl
  · exact readAnswer_guarded_of_not_bare ⟨by decide, by decide⟩ (by decide) hempty _
  · rw [readAnswer, hread]
    rfl
  · rw [readAnswer_guarded_of_not_bare ⟨by decide, by decide⟩ (by decide) hspaced, hlist]
    rfl

end Client

end Http

end ChangeDesk
