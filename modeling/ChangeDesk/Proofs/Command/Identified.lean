import ChangeDesk.Command.Run
import ChangeDesk.Proofs.Http.Request

/-!
# Who the server sees

The kind of identification that is shown for a profile, and what its client identifies itself by,
are found out in two ways. They agree but for a profile that has a password and neither a user name
nor a token: a password is shown, and the server sees nobody. No command writes such a profile, but
a configuration text may hold it.

What is said of a request here is what its client puts into it. What user information in an address
means is the business of the transport.

Main statement: the requests of every command are as the profile says, but in this case
(`Command.identified`).
-/

namespace ChangeDesk

namespace Http.Client

variable {c : Client} {r : Request}

/-- The request is for a place on the server, and carries what the client identifies itself by. -/
structure Makes (c : Client) (r : Request) : Prop where
  address : ∃ place, r.url = c.endpoint ("/c" ++ place)
  header : r.authorization = c.credentials.map Credentials.header

theorem makes_of_requestOf {call : Call} (h : c.requestOf call = .ok r) : c.Makes r := by
  have hr := requests_of_requestOf h
  obtain ⟨place, hplace⟩ := exists_place call
  have hurl := hr.url
  rw [hplace] at hurl
  exact ⟨⟨place, hurl⟩, hr.header⟩

theorem asks_answer (c : Client) (call : Call) : (c.answer call).Asks c.Makes := by
  rw [answer]
  split
  · exact Dialogue.asks_pure _
  · rename_i r hasked
    split
    · exact Dialogue.asks_pure _
    · refine (Dialogue.asks_question (makes_of_requestOf hasked)).bind ?_
      intro reply
      split <;> exact Dialogue.asks_pure _

theorem asks_run {α : Type} (c : Client) (d : Remote α) : (c.run d).Asks c.Makes :=
  Dialogue.asks_interpret c.asks_answer d

theorem asks_openSession (c : Client) (n : ChangeNumber) : (c.openSession n).Asks c.Makes :=
  (c.asks_run (Session.load n)).bind fun _ => Dialogue.asks_pure _

theorem Makes.restricted (h : c.Makes r) : c.Restricted r.url ↔ c.credentials.isSome = true := by
  obtain ⟨place, hurl⟩ := h.address
  rw [hurl]
  exact restricted_endpoint

end Http.Client

namespace Profile

/-- There is a password, but no user name to it and no token. -/
structure Nameless (p : Profile) : Prop where
  token : p.token = none
  username : p.username = none
  password : p.httpPassword.isSome = true

/-- A request identifies itself as the kind of identification says that is shown for the profile. -/
structure Advertised (p : Profile) (kind : String) (r : Http.Request) : Prop where
  restricted : p.client.Restricted r.url ↔ kind ≠ "anonymous"
  authorized : r.authorization.isSome = true ↔ kind ≠ "anonymous"
  bearer : kind = "bearer token" →
    ∃ token, p.token = some token ∧
      r.authorization = some (Http.Credentials.bearer token).header
  basic : kind = "http password" →
    ∃ username password, p.username = some username ∧ p.httpPassword = some password ∧
      r.authorization = some (Http.Credentials.basic username password).header

/-- The kinds that are shown, each with what a client identifies itself by. -/
inductive Kind (p : Profile) : String → Option Http.Credentials → Prop where
  | bearer {token : String} (known : p.token = some token) :
    Kind p "bearer token" (some (.bearer token))
  | basic {username password : String} (user : p.username = some username)
    (known : p.httpPassword = some password) :
    Kind p "http password" (some (.basic username password))
  | nameless (h : p.Nameless) : Kind p "http password" none
  | anonymous (token : p.token = none) (password : p.httpPassword = none) : Kind p "anonymous" none

variable {p : Profile} {kind : String} {r : Http.Request}

theorem kind_authentication (p : Profile) : Kind p p.authentication p.credentials := by
  obtain ⟨baseUrl, username, password, token⟩ := p
  cases token with
  | some token => exact .bearer rfl
  | none =>
    cases password with
    | none => cases username <;> exact .anonymous rfl rfl
    | some password =>
      cases username with
      | none => exact .nameless ⟨rfl, rfl, rfl⟩
      | some username => exact .basic rfl rfl

theorem Nameless.authentication (h : p.Nameless) : p.authentication = "http password" := by
  simp only [Profile.authentication, h.token, h.password, Option.isSome_none, Bool.false_eq_true,
    if_false, if_true]

theorem Nameless.credentials (h : p.Nameless) : p.credentials = none := by
  simp only [Profile.credentials, h.token, h.username]

theorem lines_getLast? (name : String) (p : Profile) :
    (p.lines name).getLast? = some ("Auth:     " ++ p.authentication) := by
  rw [lines, List.getLast?_concat]
  rfl

theorem Nameless.anonymous_of_makes (h : p.Nameless) (made : p.client.Makes r) :
    r.authorization = none ∧ ¬ p.client.Restricted r.url := by
  have hcredentials : p.client.credentials = none := h.credentials
  rw [made.restricted, made.header, hcredentials]
  exact ⟨rfl, nofun⟩

theorem Kind.advertised {credentials : Option Http.Credentials} (h : Kind p kind credentials)
    (named : ¬ p.Nameless) (restricted : p.client.Restricted r.url ↔ credentials.isSome = true)
    (header : r.authorization = credentials.map Http.Credentials.header) :
    p.Advertised kind r := by
  have authorized : r.authorization.isSome = true ↔ credentials.isSome = true := by
    rw [header, Option.isSome_map]
  cases h with
  | bearer known =>
    have hshown : "bearer token" ≠ "anonymous" := by decide
    exact ⟨by simpa [hshown] using restricted, by simpa [hshown] using authorized,
      fun _ => ⟨_, known, header⟩, fun h => absurd h (by decide)⟩
  | basic user known =>
    have hshown : "http password" ≠ "anonymous" := by decide
    exact ⟨by simpa [hshown] using restricted, by simpa [hshown] using authorized,
      fun h => absurd h (by decide), fun _ => ⟨_, _, user, known, header⟩⟩
  | nameless h => exact absurd h named
  | anonymous token password =>
    exact ⟨by simpa using restricted, by simpa using authorized,
      fun h => absurd h (by decide), fun h => absurd h (by decide)⟩

theorem advertised_iff (made : p.client.Makes r) :
    p.Advertised p.authentication r ↔ ¬ p.Nameless := by
  constructor
  · intro h hnameless
    have hshown : p.authentication ≠ "anonymous" := by
      rw [hnameless.authentication]
      decide
    -- a header is due, but the client sends none
    have hsome := h.authorized.2 hshown
    rw [(hnameless.anonymous_of_makes made).1] at hsome
    cases hsome
  · intro named
    exact p.kind_authentication.advertised named made.restricted made.header

end Profile

namespace Command

/-- The profile of the server that the command asks, if it asks one. -/
def profile? : Command → Option String
  | .view (.server _ profile) _ _ => some profile
  | .edit _ _ profile => some profile
  | _ => none

variable {s : Surroundings} {client : Http.Client} {name : String}

theorem asks_runEdit (n : ChangeNumber) (edit : FieldEdit) (h : s.client name = .ok client) :
    (runEdit s n edit name).Asks client.Makes := by
  rw [runEdit, h]
  cases edit.normal with
  | error f => exact Dialogue.asks_pure _
  | ok sent =>
    refine (client.asks_openSession n).bind ?_
    intro opened
    cases opened with
    | error f => exact Dialogue.asks_pure _
    | ok session =>
      dsimp only
      cases sent.refusal? n session with
      | some f => exact Dialogue.asks_pure _
      | none =>
        refine (client.asks_run (sent.apply n session)).bind ?_
        intro applied
        cases applied <;> exact Dialogue.asks_pure _

theorem asks_view (n : ChangeNumber) (options : ViewOptions) (asDocument : Bool)
    (h : s.client name = .ok client) :
    (run s (.view (.server n name) options asDocument)).Asks client.Makes := by
  rw [run, ChangeSource.load, h]
  have hload := (client.asks_openSession n).bind fun opened => Dialogue.asks_pure
    (P := client.Makes) ((fun session => (session.change, session.config)) <$> opened)
  refine hload.bind ?_
  intro loaded
  cases loaded <;> exact Dialogue.asks_pure _

theorem asks_run {command : Command} (asks : command.profile? = some name)
    (h : s.client name = .ok client) : (run s command).Asks client.Makes := by
  cases command with
  | view source options asDocument =>
    cases source with
    | snapshot path config => cases asks
    | server n profile =>
      obtain rfl := Option.some.inj asks
      exact asks_view n options asDocument h
  | edit n edit profile =>
    obtain rfl := Option.some.inj asks
    exact asks_runEdit n edit h
  | profiles command => cases asks

theorem describe_known {ps : Profiles} {p : Profile} (loads : s.storedProfiles = .ok ps)
    (known : ps.get? name = some p) (replies : Http.Replies) :
    ((run s (.profiles (.describe name))).converse replies).2 =
      .ok (.printed (p.lines name)) := by
  have hrun : ProfileCommand.run ps (.describe name) = .ok (.printed (p.lines name)) := by
    rw [ProfileCommand.run, known]
  rw [← hrun, run, loads]
  rfl

theorem client_known {ps : Profiles} {p : Profile} (loads : s.storedProfiles = .ok ps)
    (known : ps.get? name = some p) : s.client name = .ok p.client := by
  unfold Surroundings.client
  rw [loads]
  simp only [Bind.bind, Except.bind, known]
  rfl

/-- The requests of commands and the identification that is shown, whatever the stored profiles are
and whatever is replied. Each request of a command that asks the server of a profile is as the kind
says that is shown for this profile: for the restricted part and with a header or neither, with the
token, or with the user name and the password, exactly if the profile is not one that has a password
and neither a user name nor a token. Of such a profile a password is shown, and its requests are
anonymous. -/
theorem identified (s : Surroundings) {ps : Profiles} {name : String} {p : Profile}
    (loads : s.storedProfiles = .ok ps) (known : ps.get? name = some p) {command : Command}
    (asks : command.profile? = some name) (replies replies' : Http.Replies) :
    let talk : List Http.Exchange := ((run s command).converse replies).1
    ∃ lines kind,
      ((run s (.profiles (.describe name))).converse replies').2 = .ok (.printed lines) ∧
      lines.getLast? = some ("Auth:     " ++ kind) ∧
      (∀ exchange ∈ talk, p.Advertised kind exchange.request ↔ ¬ p.Nameless) ∧
      (p.Nameless → kind = "http password" ∧ ∀ exchange ∈ talk,
        exchange.request.authorization = none ∧
          ¬ p.client.Restricted exchange.request.url) := by
  intro talk
  have hmakes : ∀ exchange ∈ talk, p.client.Makes exchange.request := by
    intro exchange mem
    exact (asks_run asks (client_known loads known)).of_mem replies mem
  refine ⟨p.lines name, p.authentication, describe_known loads known replies',
    p.lines_getLast? name, ?_, ?_⟩
  · intro exchange mem
    exact Profile.advertised_iff (hmakes exchange mem)
  · intro hnameless
    refine ⟨hnameless.authentication, ?_⟩
    intro exchange mem
    exact hnameless.anonymous_of_makes (hmakes exchange mem)

/-- A user name and a password, which both requests of a view carry. -/
theorem identified_basic :
    let s : Surroundings := ⟨.ok (some
      "[profiles.default]\nbase_url = \"https://r/\"\nusername = \"u\"\nhttp_password = \"p\"\n"),
      fun _ => .error .missing⟩
    let p : Profile := ⟨"https://r/", some "u", some "p", none⟩
    let command : Command := .view (.server ⟨42⟩ "default") ⟨false, false, false⟩ true
    let replies : Http.Replies := fun _ _ => .ok ⟨200, "\x7b\x7d"⟩
    let talk : List Http.Exchange := ((run s command).converse replies).1
    (∃ ps, s.storedProfiles = .ok ps ∧ ps.get? "default" = some p) ∧
    command.profile? = some "default" ∧
    talk.map (fun e => (e.request.url, e.request.authorization)) =
      [("https://r/a/config/server/info", some "Basic dTpw"),
        ("https://r/a/changes/42/detail", some "Basic dTpw")] ∧
    ∃ kind, ∀ exchange ∈ talk, p.Advertised kind exchange.request := by
  intro s p command replies talk
  have htext : Profiles.ofText? (some
      "[profiles.default]\nbase_url = \"https://r/\"\nusername = \"u\"\nhttp_password = \"p\"\n") =
      some (Profiles.set .empty "default" p) := by
    decide +kernel
  have hloads : s.storedProfiles = .ok (Profiles.set .empty "default" p) :=
    Surroundings.storedProfiles_of_read rfl htext
  have hknown : (Profiles.set .empty "default" p).get? "default" = some p := rfl
  have hasks : command.profile? = some "default" := rfl
  have htalk : talk.map (fun e => (e.request.url, e.request.authorization)) =
      [("https://r/a/config/server/info", some "Basic dTpw"),
        ("https://r/a/changes/42/detail", some "Basic dTpw")] := by
    dsimp only [talk, command]
    rw [run, ChangeSource.load, client_known hloads hknown]
    decide +kernel
  have hnamed : ¬ p.Nameless := fun h => nomatch h.username
  obtain ⟨lines, kind, -, -, hadvertised, -⟩ := identified s hloads hknown hasks replies replies
  refine ⟨⟨_, hloads, hknown⟩, hasks, htalk, kind, ?_⟩
  intro exchange mem
  exact (hadvertised exchange mem).2 hnamed

/-- A password without a user name: it is shown, and both requests of a view are anonymous. -/
theorem identified_nameless :
    let s : Surroundings := ⟨.ok (some
      "[profiles.default]\nbase_url = \"https://r\"\nhttp_password = \"p\"\n"),
      fun _ => .error .missing⟩
    let p : Profile := ⟨"https://r", none, some "p", none⟩
    let replies : Http.Replies := fun _ _ => .ok ⟨200, "\x7b\x7d"⟩
    let talk : List Http.Exchange := ((run s (.view (.server ⟨42⟩ "default") ⟨false, false, false⟩
      true)).converse replies).1
    Ending.ofResult ((run s (.profiles (.describe "default"))).converse replies).2 =
      ⟨0, "Profile:  default\nBase URL: https://r\nAuth:     http password\n", "", none⟩ ∧
    talk.map (fun e => (e.request.url, e.request.authorization)) =
      [("https://r/config/server/info", none), ("https://r/changes/42/detail", none)] ∧
    ∀ exchange ∈ talk, ¬ p.Advertised "http password" exchange.request := by
  intro s p replies talk
  have htext : Profiles.ofText? (some
      "[profiles.default]\nbase_url = \"https://r\"\nhttp_password = \"p\"\n") =
      some (Profiles.set .empty "default" p) := by
    decide +kernel
  have hloads : s.storedProfiles = .ok (Profiles.set .empty "default" p) :=
    Surroundings.storedProfiles_of_read rfl htext
  have hknown : (Profiles.set .empty "default" p).get? "default" = some p := rfl
  have htalk : talk.map (fun e => (e.request.url, e.request.authorization)) =
      [("https://r/config/server/info", none), ("https://r/changes/42/detail", none)] := by
    dsimp only [talk]
    rw [run, ChangeSource.load, client_known hloads hknown]
    decide +kernel
  refine ⟨?_, htalk, ?_⟩
  · rw [describe_known hloads hknown]
    decide
  · intro exchange mem h
    have hsome := h.authorized.2 (by decide)
    have hpair := List.mem_map_of_mem (f := fun e : Http.Exchange =>
      (e.request.url, e.request.authorization)) mem
    rw [htalk] at hpair
    simp only [List.mem_cons, Prod.mk.injEq, List.not_mem_nil, or_false] at hpair
    obtain ⟨-, hnone⟩ | ⟨-, hnone⟩ := hpair <;> rw [hnone] at hsome <;> cases hsome

end Command

end ChangeDesk
