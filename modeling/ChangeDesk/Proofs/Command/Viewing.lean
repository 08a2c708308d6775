import ChangeDesk.Proofs.Command.Edited
import ChangeDesk.Proofs.Http.Request

/-!
# Viewing a change from files and from a server

A change is viewed from two files or from a server. The files are read one after the other, the
change first; the server is asked for its configuration first, and a blank response is no document.
Yet both ways take the same texts for documents, so where the server answers with the texts of the
files, they print the same, and one fails exactly if the other does.

Main statement: both ways end alike (`Command.view_agrees`).
-/

namespace ChangeDesk

/-! ### A server with two documents -/

namespace Http

/-- A success whose body is the text. -/
def Response.okay (text : String) : Response := ⟨200, text⟩

/-- The server is reached, and answers a client that asks for its configuration and then for a
change with these texts. -/
structure Client.Serves (c : Client) (n : ChangeNumber) (replies : Replies)
    (info detail : String) : Prop where
  info_sent : ∃ u, addressOf c.infoRequest = .ok u
  detail_sent : ∃ u, addressOf (c.detailRequest n) = .ok u
  info : replies 0 c.infoRequest = .ok (.okay info)
  detail : replies 1 (c.detailRequest n) = .ok (.okay detail)

end Http

namespace Json.Document

variable {α : Type} {codec : Codec α} {text : String}

theorem payload_of_allBlank (h : Text.allBlank text = true) : payload text.toList = [] := by
  have hblank : ∀ c ∈ text.toList, Text.isBlank c = true := List.all_eq_true.1 h
  have hpayload := payload_blank hblank []
  rwa [List.append_nil] at hpayload

/-- There is no value in a blank text. -/
theorem decode_of_allBlank (h : Text.allBlank text = true) {fault : Fault}
    (hgap : codec.read levels (.gap (.noValue true)) = .error fault) :
    decode codec text = .error fault := by
  rw [decode, payload_of_allBlank h, readWhole]
  show (codec.read levels (.gap (.noValue true)) >>= _) = _
  rw [hgap]
  rfl

end Json.Document

namespace Http

theorem Response.okay_yields {α : Type} {codec : Json.Codec α} {text : String}
    {fault : Json.Fault}
    (hgap : codec.read Json.Document.levels (.gap (.noValue true)) = .error fault) {a : α} :
    (okay text).Yields codec a ↔ Json.Document.decode codec text = .ok a := by
  constructor
  · intro h
    exact h.decodes
  · intro h
    have hstatus : (okay text).status = 200 := rfl
    refine ⟨by omega, by omega, ?_, h⟩
    cases hblank : Text.allBlank text with
    | false => exact hblank
    | true =>
      rw [Json.Document.decode_of_allBlank hblank hgap] at h
      cases h

namespace Client

variable {c : Client} {n : ChangeNumber} {replies : Replies} {info detail : String}

theorem converse_answer {call : Call} {w : Request} {response : Response}
    (asked : c.requestOf call = .ok w) (sent : ∃ u, addressOf w = .ok u)
    (hreply : replies 0 w = .ok response) :
    (c.answer call).converse replies = ([⟨w, .ok response⟩], readAnswer call response) := by
  obtain ⟨answer, hconverse, hread⟩ := converse_asked asked sent
  rw [hconverse, hreply, hread response hreply]

/-- What comes after the configuration of the server. -/
def loadChange (c : Client) (n : ChangeNumber) (config : ServerConfig) :
    Wire (Except RemoteFault Session) := do
  match ← c.answer (.getChange n) with
  | .error f => return .error f
  | .ok change => return .ok (Session.start change config)

theorem run_load (c : Client) (n : ChangeNumber) :
    c.run (Session.load n) = (do
      match ← c.answer .getConfig with
      | .error f => return .error f
      | .ok config => c.loadChange n config) := by
  show (c.answer .getConfig >>= fun reply => Dialogue.interpret c.answer _) = _
  congr 1
  funext reply
  cases reply with
  | error f => rfl
  | ok config =>
    show (c.answer (.getChange n) >>= fun reply => Dialogue.interpret c.answer _) =
      c.answer (.getChange n) >>= _
    congr 1
    funext reply
    cases reply <;> rfl

/-- A session is loaded from both documents. -/
theorem converse_load (h : c.Serves n replies info detail) :
    ((c.run (Session.load n)).converse replies).2 =
      (do
        let config : ServerConfig ← readAnswer .getConfig (.okay info)
        let change : Change ← readAnswer (.getChange n) (.okay detail)
        return Session.start change config) := by
  have hinfo : (c.answer .getConfig).converse replies =
      ([⟨c.infoRequest, .ok (.okay info)⟩], readAnswer .getConfig (.okay info)) :=
    converse_answer rfl h.info_sent h.info
  have hdetail : (c.answer (.getChange n)).converse (fun i => replies (i + 1)) =
      ([⟨c.detailRequest n, .ok (.okay detail)⟩], readAnswer (.getChange n) (.okay detail)) :=
    converse_answer rfl h.detail_sent h.detail
  rw [run_load, Dialogue.converse_bind, hinfo]
  cases readAnswer .getConfig (.okay info) with
  | error f => rfl
  | ok config =>
    show ((c.loadChange n config).converse fun i => replies (i + 1)).2 = _
    unfold loadChange
    rw [Dialogue.converse_bind, hdetail]
    cases readAnswer (.getChange n) (.okay detail) <;> rfl

end Client

end Http

/-! ### Both ways to a change -/

/-- The texts are the documents of a change and of the configuration of its server. -/
def Documents (detail info : String) (change : Change) (config : ServerConfig) : Prop :=
  Json.Document.decode Change.codec detail = .ok change ∧
    Json.Document.decode ServerConfig.codec info = .ok config

namespace ChangeSource

variable {s : Surroundings} {detail info path configPath profile : String} {n : ChangeNumber}
  {client : Http.Client} {replies : Http.Replies} {change : Change} {config : ServerConfig}

theorem document_ok {α : Type} {codec : Json.Codec α} {text : String}
    (hfile : s.file path = .ok text) {a : α} :
    s.document codec path = .ok a ↔ Json.Document.decode codec text = .ok a := by
  rw [Surroundings.document, hfile]
  dsimp only
  cases Json.Document.decode codec text with
  | ok b =>
    show Except.ok b = Except.ok a ↔ _
    rw [Except.ok.injEq, Except.ok.injEq]
  | error f => exact ⟨nofun, nofun⟩

theorem load_snapshot (hdetail : s.file path = .ok detail) (hinfo : s.file configPath = .ok info) :
    ((load s (.snapshot path (some configPath))).converse replies).2 = .ok (change, config) ↔
      Documents detail info change config := by
  rw [Documents, ← document_ok hdetail, ← document_ok hinfo]
  show (do
    let change ← s.document Change.codec path
    return (change, ← s.document ServerConfig.codec configPath)) = Except.ok _ ↔ _
  cases s.document Change.codec path with
  | error f => exact ⟨nofun, nofun⟩
  | ok b =>
    cases s.document ServerConfig.codec configPath with
    | error f => exact ⟨nofun, nofun⟩
    | ok k =>
      show Except.ok (b, k) = Except.ok (change, config) ↔ _
      simp only [Except.ok.injEq, Prod.mk.injEq]

theorem load_server (hclient : s.client profile = .ok client)
    (hserves : client.Serves n replies info detail) :
    ((load s (.server n profile)).converse replies).2 = .ok (change, config) ↔
      Documents detail info change config := by
  have hconfig : Http.Client.readAnswer .getConfig (.okay info) = .ok config ↔
      Json.Document.decode ServerConfig.codec info = .ok config :=
    Http.Client.readAnswer_config.trans (Http.Response.okay_yields rfl)
  have hchange : Http.Client.readAnswer (.getChange n) (.okay detail) = .ok change ↔
      Json.Document.decode Change.codec detail = .ok change :=
    Http.Client.readAnswer_change.trans (Http.Response.okay_yields rfl)
  rw [Documents, ← hconfig, ← hchange, load, hclient]
  dsimp only
  rw [Dialogue.converse_bind, Http.Client.openSession, Dialogue.converse_bind,
    Http.Client.converse_load hserves]
  cases Http.Client.readAnswer .getConfig (.okay info) with
  | error f => exact ⟨nofun, nofun⟩
  | ok k =>
    cases Http.Client.readAnswer (.getChange n) (.okay detail) with
    | error f => exact ⟨nofun, nofun⟩
    | ok b =>
      constructor
      · intro h
        cases h
        exact ⟨rfl, rfl⟩
      · rintro ⟨hb, hk⟩
        cases hb
        cases hk
        rfl

end ChangeSource

namespace Command

theorem run_view (s : Surroundings) (source : ChangeSource) (options : ViewOptions)
    (asDocument : Bool) (replies : Http.Replies) :
    ((run s (.view source options asDocument)).converse replies).2 =
      (fun p => Outcome.printed [viewText options asDocument p.1 p.2]) <$>
        ((source.load s).converse replies).2 := by
  rw [run, Dialogue.converse_bind]
  cases ((source.load s).converse replies).2 with
  | error f => rfl
  | ok p => rfl

/-- Viewing the change in a file, with the configuration in another, and viewing it on a server that
answers with the texts of both files print the same and end with the same code. They succeed if both
texts are documents, and print what is shown of these; otherwise they print nothing. -/
theorem view_agrees (here there : Surroundings) {path configPath profile detail info : String}
    {n : ChangeNumber} {client : Http.Client} {replies : Http.Replies} (options : ViewOptions)
    (asDocument : Bool) (answers : Http.Replies) (hdetail : here.file path = .ok detail)
    (hinfo : here.file configPath = .ok info) (hclient : there.client profile = .ok client)
    (hserves : client.Serves n replies info detail) :
    let viewed := Ending.ofResult ((run here
      (.view (.snapshot path (some configPath)) options asDocument)).converse answers).2
    let fetched := Ending.ofResult ((run there
      (.view (.server n profile) options asDocument)).converse replies).2
    viewed.output = fetched.output ∧ viewed.code = fetched.code ∧
      ((viewed.code = 0 ∧ ∃ change config, Documents detail info change config ∧
        viewed.output = (Outcome.printed [viewText options asDocument change config]).text) ∨
      (viewed.code = 1 ∧ viewed.output = "" ∧
        ∀ change config, ¬ Documents detail info change config)) := by
  intro viewed fetched
  have hviewed : viewed = Ending.ofResult _ :=
    congrArg Ending.ofResult
      (run_view here (.snapshot path (some configPath)) options asDocument answers)
  have hfetched : fetched = Ending.ofResult _ :=
    congrArg Ending.ofResult (run_view there (.server n profile) options asDocument replies)
  by_cases hdocuments : ∃ change config, Documents detail info change config
  · obtain ⟨change, config, h⟩ := hdocuments
    rw [(ChangeSource.load_snapshot hdetail hinfo).2 h] at hviewed
    rw [(ChangeSource.load_server hclient hserves).2 h] at hfetched
    rw [hviewed, hfetched]
    exact ⟨rfl, rfl, .inl ⟨rfl, change, config, h, rfl⟩⟩
  · have hnone : ∀ change config, ¬ Documents detail info change config :=
      fun change config h => hdocuments ⟨change, config, h⟩
    cases hfile : ((ChangeSource.load here
      (.snapshot path (some configPath))).converse answers).2 with
    | ok p => exact absurd ((ChangeSource.load_snapshot hdetail hinfo).1 hfile) (hnone p.1 p.2)
    | error f =>
      cases hserver : ((ChangeSource.load there (.server n profile)).converse replies).2 with
      | ok p => exact absurd ((ChangeSource.load_server hclient hserves).1 hserver) (hnone p.1 p.2)
      | error g =>
        rw [hfile] at hviewed
        rw [hserver] at hfetched
        rw [hviewed, hfetched]
        exact ⟨rfl, rfl, .inr ⟨rfl, rfl, hnone⟩⟩

/-- A change behind the guard. -/
theorem view_agrees_guarded :
    let detail := ")]\x7d'\n\x7b\"_number\":42,\"topic\":\"t\"\x7d"
    let here : Surroundings :=
      ⟨.ok none, fun path => .ok (if path = "c" then detail else "\x7b\x7d")⟩
    let there : Surroundings :=
      ⟨.ok (some "[profiles.default]\nbase_url = \"https://r\"\n"), fun _ => .error .missing⟩
    let replies : Http.Replies := fun i _ => .ok (.okay (if i = 0 then "\x7b\x7d" else detail))
    (∃ client, there.client "default" = .ok client ∧
      client.Serves ⟨42⟩ replies "\x7b\x7d" detail) ∧
    here.file "c" = .ok detail ∧ here.file "s" = .ok "\x7b\x7d" ∧
    (Ending.ofResult ((run here (.view (.snapshot "c" (some "s")) ⟨true, true, false⟩
      true)).converse replies).2).output =
      (Ending.ofResult ((run there (.view (.server ⟨42⟩ "default") ⟨true, true, false⟩
        true)).converse replies).2).output := by
  intro detail here there replies
  have hprofile : (there.client "default").toOption = some ⟨"https://r", none⟩ := by decide +kernel
  have hclient : there.client "default" = .ok ⟨"https://r", none⟩ := by
    cases hread : there.client "default" with
    | error f =>
      rw [hread] at hprofile
      cases hprofile
    | ok c =>
      rw [hread] at hprofile
      cases hprofile
      rfl
  have hserves : Http.Client.Serves ⟨"https://r", none⟩ ⟨42⟩ replies "\x7b\x7d" detail :=
    ⟨Http.Client.exists_of_isOk (by decide +kernel),
      Http.Client.exists_of_isOk (by decide +kernel), rfl, rfl⟩
  have hdetail : here.file "c" = .ok detail := rfl
  have hinfo : here.file "s" = .ok "\x7b\x7d" := rfl
  have hagrees := view_agrees here there ⟨true, true, false⟩ true replies hdetail hinfo hclient
    hserves
  exact ⟨⟨_, hclient, hserves⟩, hdetail, hinfo, hagrees.1⟩

end Command

end ChangeDesk
