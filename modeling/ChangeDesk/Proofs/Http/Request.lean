import ChangeDesk.Http.Client
import ChangeDesk.Proofs.Document.Variant
import ChangeDesk.Proofs.Http.Answer
import ChangeDesk.Proofs.Http.Place

/-!
# The request of each call

A call is one request. Its method, its address, its header and what its body holds are given here
for all calls alike, apart from how a client puts them together, and the body by what is read of it.

Main statement: which request each call makes, and when it makes none (`Client.answer_requests`).
-/

namespace ChangeDesk

open Http (Method)

namespace Json.Document

variable {α : Type} {c : Codec α} {depth : Nat} {entries entries' : List (String × α)}
  {text : String}

/-- The text is an object with exactly these members, each with a value of the codec. -/
def Holds (c : Codec α) (text : String) (entries : List (String × α)) : Prop :=
  Dict.entries <$> decode c.dict text = .ok entries

theorem Holds.unique (h : Holds c text entries) (h' : Holds c text entries') :
    entries = entries' :=
  Except.ok.inj (h.symm.trans h')

theorem holds_toText (hc : c.Lawful depth) (hd : depth + 1 < levels)
    (sorted : entries.Pairwise fun a b => a.1 < b.1) :
    Holds c (Value.object (entries.map fun e => (e.1, c.write e.2))).toText entries := by
  have hread := hc.dict.read_write levels hd ⟨entries, sorted⟩
  rw [Holds, (spells_toText _).decode]
  show Dict.entries <$> c.dict.read levels (c.dict.write ⟨entries, sorted⟩).node = _
  rw [hread]
  rfl

end Json.Document

/-! ### What a call asks for -/

namespace Call

def method : Call → Method
  | .getConfig | .getChange _ | .getAssignee _ => .get
  | .setAssignee _ _ => .put
  | .clearAssignee _ => .delete
  | .setTopic _ topic => if topic = none ∨ topic = some "" then .delete else .put
  | .editHashtags _ _ => .post

/-- Where a call goes to, from the address of the server or of its restricted part. -/
def place : Call → String
  | .getConfig => "/config/server/info"
  | .getChange n => "/changes/" ++ n.text ++ "/detail"
  | .getAssignee n | .setAssignee n _ | .clearAssignee n => "/changes/" ++ n.text ++ "/assignee"
  | .setTopic n _ => "/changes/" ++ n.text ++ "/topic"
  | .editHashtags n _ => "/changes/" ++ n.text ++ "/hashtags"

def options : Call → List String
  | .getChange _ => Http.Client.detailOptions
  | _ => []

/-- The account has neither a number nor an email nor a user name. -/
def Unaddressable : Call → Prop
  | .setAssignee _ account =>
    account.id = none ∧ account.email = none ∧ account.username = none
  | _ => False

open Json.Document in
/-- What the body of a call is: the account's reference, the topic, or the lists of hashtags that
are not empty. A call that sends nothing has none. -/
inductive Sends : Call → Option String → Prop where
  | config : Sends .getConfig none
  | change {n : ChangeNumber} : Sends (.getChange n) none
  | assigned {n : ChangeNumber} : Sends (.getAssignee n) none
  | assignee {n : ChangeNumber} {account : Account} {reference text : String}
    (known : account.reference? = some reference)
    (body : Holds .text text [("assignee", reference)]) :
    Sends (.setAssignee n account) (some text)
  | unassigned {n : ChangeNumber} : Sends (.clearAssignee n) none
  | topic {n : ChangeNumber} {topic text : String} (nonempty : topic ≠ "")
    (body : Holds .text text [("topic", topic)]) : Sends (.setTopic n (some topic)) (some text)
  | untitled {n : ChangeNumber} {topic : Option String} (empty : topic = none ∨ topic = some "") :
    Sends (.setTopic n topic) none
  | hashtags {n : ChangeNumber} {edit : HashtagEdit} {text : String}
    (body : Holds Json.Codec.text.list text
      ([("add", edit.add), ("remove", edit.remove)].filter fun e => !e.2.isEmpty)) :
    Sends (.editHashtags n edit) (some text)

end Call

theorem Account.reference?_eq_none {a : Account} :
    a.reference? = none ↔ a.id = none ∧ a.email = none ∧ a.username = none := by
  unfold reference?
  cases a.id <;> cases a.email <;> simp

namespace Http.Client

variable {c : Client} {call : Call} {r : Request} {address address' base : String}
  {credentials : Option Credentials}

/-- The request of a call to a server. -/
structure Requests (base : String) (credentials : Option Credentials) (call : Call)
    (r : Request) : Prop where
  method : r.method = call.method
  url : r.url = base ++ (if credentials.isSome then "/a" else "") ++ call.place
  query : r.query = call.options.map fun o => ("o", o)
  header : r.authorization = credentials.map Credentials.header
  body : call.Sends r.body

/-! ### One request for each call -/

theorem requestOf_unaddressable (h : call.Unaddressable) :
    c.requestOf call = .error .unaddressable := by
  cases call with
  | setAssignee n account => rw [requestOf, Account.reference?_eq_none.2 h]
  | _ => exact h.elim

theorem holds_single (key text : String) :
    Json.Document.Holds .text (Json.Value.object [(key, .text text)]).toText [(key, text)] := by
  have hentries := @Json.Document.holds_toText String Json.Codec.text 0 [(key, text)]
  exact hentries Json.Codec.text_lawful (by decide) (List.pairwise_singleton _ _)

theorem sends_assignee {n : ChangeNumber} {account : Account} {reference : String}
    (known : account.reference? = some reference) :
    (Call.setAssignee n account).Sends
      (some (Json.Value.object [("assignee", .text reference)]).toText) :=
  .assignee known (holds_single "assignee" reference)

theorem sends_topic {n : ChangeNumber} {topic : String} (h : topic ≠ "") :
    (Call.setTopic n (some topic)).Sends
      (some (Json.Value.object [("topic", .text topic)]).toText) :=
  .topic h (holds_single "topic" topic)

theorem write_edit (edit : HashtagEdit) :
    HashtagEdit.codec.write edit =
      .object (([("add", edit.add), ("remove", edit.remove)].filter fun e => !e.2.isEmpty).map
        fun e => (e.1, Json.Codec.text.list.write e.2)) := by
  obtain ⟨add, remove⟩ := edit
  cases add <;> cases remove <;> rfl

theorem sends_hashtags (n : ChangeNumber) (edit : HashtagEdit) :
    (Call.editHashtags n edit).Sends (some (HashtagEdit.codec.write edit).toText) := by
  have hsorted : [("add", edit.add), ("remove", edit.remove)].Pairwise fun a b => a.1 < b.1 := by
    simp only [List.pairwise_cons, List.mem_singleton, forall_eq, List.not_mem_nil, false_imp_iff,
      implies_true, List.Pairwise.nil, and_true]
    decide
  rw [write_edit]
  exact .hashtags (Json.Document.holds_toText Json.Codec.text_lawful.list (by decide)
    (hsorted.filter _))

/-- Every other call has a request, and it is the right one. -/
theorem requestOf_addressable (h : ¬ call.Unaddressable) :
    ∃ r, c.requestOf call = .ok r ∧ Requests c.base c.credentials call r := by
  cases call with
  | setAssignee n account =>
    cases hreference : account.reference? with
    | none => exact absurd (Account.reference?_eq_none.1 hreference) h
    | some reference =>
      have hrequest : c.requestOf (.setAssignee n account) = .ok (c.request .put
          (changePlace n "/assignee") (some (.object [("assignee", .text reference)]))) := by
        rw [requestOf, hreference]
      exact ⟨_, hrequest, rfl, rfl, rfl, rfl, sends_assignee hreference⟩
  | setTopic n topic =>
    by_cases hempty : topic = none ∨ topic = some ""
    · have hfilter : topic.filter (fun t => t != "") = none := by
        obtain rfl | rfl := hempty <;> rfl
      have hrequest : c.requestOf (.setTopic n topic) =
          .ok (c.request .delete (changePlace n "/topic") none) := by
        rw [requestOf, hfilter]
      have hmethod : Method.delete = (Call.setTopic n topic).method := (if_pos hempty).symm
      exact ⟨_, hrequest, hmethod, rfl, rfl, rfl, .untitled hempty⟩
    · obtain ⟨hnone, hblank⟩ := not_or.1 hempty
      obtain ⟨t, rfl⟩ := Option.ne_none_iff_exists'.1 hnone
      have ht : t ≠ "" := fun h => hblank (congrArg some h)
      have hfilter : (some t).filter (fun t => t != "") = some t := by simp [ht]
      have hrequest : c.requestOf (.setTopic n (some t)) =
          .ok (c.request .put (changePlace n "/topic") (some (.object [("topic", .text t)]))) := by
        rw [requestOf, hfilter]
      have hmethod : Method.put = (Call.setTopic n (some t)).method := (if_neg hempty).symm
      exact ⟨_, hrequest, hmethod, rfl, rfl, rfl, sends_topic ht⟩
  | editHashtags n edit => exact ⟨_, rfl, rfl, rfl, rfl, rfl, sends_hashtags n edit⟩
  | getConfig => exact ⟨_, rfl, rfl, rfl, rfl, rfl, .config⟩
  | getChange n => exact ⟨_, rfl, rfl, rfl, rfl, rfl, .change⟩
  | getAssignee n => exact ⟨_, rfl, rfl, rfl, rfl, rfl, .assigned⟩
  | clearAssignee n => exact ⟨_, rfl, rfl, rfl, rfl, rfl, .unassigned⟩

theorem requests_of_requestOf (h : c.requestOf call = .ok r) :
    Requests c.base c.credentials call r := by
  have hsome : ¬ call.Unaddressable := by
    intro hnone
    rw [requestOf_unaddressable hnone] at h
    cases h
  obtain ⟨r', h', hr⟩ := requestOf_addressable (c := c) hsome
  rw [h] at h'
  obtain rfl := Except.ok.inj h'
  exact hr

/-! ### Requests that can be sent -/

theorem place_change (n : ChangeNumber) {part : String}
    (hpart : ∀ c ∈ part.toList, c.isAlphanum = true ∨ c = '/') :
    Url.Place ("/changes/" ++ n.text ++ part).toList := by
  have hdigits : ∀ c ∈ n.text.toList, c.isAlphanum = true := by
    intro c hc
    have hdigit : c.isDigit = true :=
      Nat.isDigit_of_mem_toDigits (by decide) (by decide) (String.toList_ofList ▸ hc)
    rw [Char.isAlphanum, hdigit, Bool.or_true]
  have hrest : ∀ c ∈ n.text.toList ++ part.toList, c.isAlphanum = true ∨ c = '/' := by
    intro c hc
    obtain hc | hc := List.mem_append.1 hc
    · exact .inl (hdigits c hc)
    · exact hpart c hc
  have hname : ∀ c ∈ "changes".toList, c.isAlphanum = true := List.all_eq_true.1 (by decide)
  rw [String.toList_append, String.toList_append, List.append_assoc]
  exact .named (by decide) hname hrest

theorem place_call (call : Call) : Url.Place call.place.toList := by
  cases call with
  | getConfig =>
    have hname : ∀ c ∈ "config".toList, c.isAlphanum = true := List.all_eq_true.1 (by decide)
    have hrest : ∀ c ∈ "server/info".toList, c.isAlphanum = true ∨ c = '/' :=
      Url.plain_of_all (by decide)
    exact .named (by decide) hname hrest
  | _ => exact place_change _ (Url.plain_of_all (by decide))

theorem place_endpoint (credentials : Option Credentials) (call : Call) :
    Url.Place ((if credentials.isSome then "/a" else "") ++ call.place).toList := by
  have hplace := place_call call
  rw [String.toList_append]
  cases credentials with
  | none => exact hplace
  | some k =>
    have hname : ∀ c ∈ ['a'], c.isAlphanum = true := List.forall_mem_singleton.2 rfl
    show Url.Place ("/a".toList ++ call.place.toList)
    exact hplace.below (by decide) hname

theorem addressOf_ok :
    (∃ u, addressOf r = .ok u) ↔
      (∃ u, Url.read r.url = .ok u) ∧ r.authorization.all Request.isHeaderText = true := by
  rw [addressOf, Request.address]
  cases Url.read r.url with
  | error f => exact ⟨nofun, fun h => nomatch h.1⟩
  | ok u =>
    cases hheader : r.authorization.all Request.isHeaderText with
    | true => exact ⟨fun _ => ⟨⟨u, rfl⟩, rfl⟩, fun _ => ⟨_, rfl⟩⟩
    | false => exact ⟨nofun, fun h => nomatch h.2⟩

/-- Some request of the client can be sent. -/
def Usable (c : Client) : Prop :=
  ∃ call r u, c.requestOf call = .ok r ∧ addressOf r = .ok u

/-- Then all can, since they differ in their places only. -/
theorem Usable.sent (usable : c.Usable) (h : Requests c.base c.credentials call r) :
    ∃ u, addressOf r = .ok u := by
  obtain ⟨call', r', u', hrequest, hu⟩ := usable
  have h' := requests_of_requestOf hrequest
  obtain ⟨⟨u, hread⟩, hheader⟩ := addressOf_ok.1 ⟨u', hu⟩
  rw [h'.url, String.append_assoc] at hread
  rw [addressOf_ok, h.url, String.append_assoc, h.header, ← h'.header]
  exact ⟨Url.read_place (place_endpoint _ _) (place_endpoint _ _) hread, hheader⟩

/-! ### The address of a server -/

/-- The second text is the first without the slashes at its end. -/
structure Strips (address base : String) : Prop where
  slashes : ∃ k, address.toList = base.toList ++ List.replicate k '/'
  bare : base.toList.getLast? ≠ some '/'

theorem exists_strips (address : String) : ∃ base, Strips address base := by
  have hsplit := List.takeWhile_append_dropWhile (p := (· == '/')) (l := address.toList.reverse)
  refine ⟨String.ofList (address.toList.reverse.dropWhile (· == '/')).reverse, ?_, ?_⟩
  · refine ⟨(address.toList.reverse.takeWhile (· == '/')).length, ?_⟩
    have hslashes : address.toList.reverse.takeWhile (· == '/') =
        List.replicate (address.toList.reverse.takeWhile (· == '/')).length '/' := by
      rw [List.eq_replicate_iff]
      exact ⟨rfl, fun c hc => beq_iff_eq.1 (List.mem_takeWhile_imp (p := (· == '/')) hc)⟩
    rw [String.toList_ofList, ← List.reverse_replicate, ← hslashes, ← List.reverse_append, hsplit,
      List.reverse_reverse]
  · rw [String.toList_ofList, List.getLast?_reverse]
    intro h
    have hfirst := List.head?_dropWhile_not (· == '/') address.toList.reverse
    rw [h] at hfirst
    cases hfirst

theorem Strips.ofAddress (h : Strips address base) :
    ofAddress address credentials = ⟨base, credentials⟩ := by
  obtain ⟨k, hk⟩ := h.slashes
  have hbase : base.toList.reverse.dropWhile (· == '/') = base.toList.reverse := by
    have hlast := h.bare
    rw [← List.head?_reverse] at hlast
    cases hreverse : base.toList.reverse with
    | nil => rfl
    | cons c cs =>
      rw [hreverse] at hlast
      refine List.dropWhile_cons_of_neg ?_
      rw [beq_iff_eq]
      rintro rfl
      exact hlast rfl
  rw [Client.ofAddress, hk, List.reverse_append, List.reverse_replicate,
    List.dropWhile_append_of_pos (by simp), hbase, List.reverse_reverse, String.ofList_toList]

/-! ### Conversations -/

/-- The address lies in the part of the server that is for those who identify themselves. -/
def Restricted (c : Client) (url : String) : Prop := (c.base ++ "/a/").toList <+: url.toList

theorem restricted_endpoint {place : String} :
    c.Restricted (c.endpoint ("/c" ++ place)) ↔ c.credentials.isSome = true := by
  rw [Restricted, endpoint]
  simp only [String.toList_append, List.append_assoc, List.prefix_append_right_inj]
  cases c.credentials with
  | none => simp
  | some k => simp

theorem exists_place (call : Call) : ∃ place, call.place = "/c" ++ place := by
  have hchange : ∀ (n : ChangeNumber) (part : String),
      "/changes/" ++ n.text ++ part = "/c" ++ ("hanges/" ++ n.text ++ part) := by
    intro n part
    rw [← String.append_assoc, ← String.append_assoc]
    rfl
  cases call with
  | getConfig => exact ⟨"onfig/server/info", rfl⟩
  | _ => exact ⟨_, hchange _ _⟩

theorem Requests.restricted (h : Requests c.base c.credentials call r) :
    c.Restricted r.url ↔ r.authorization.isSome = true := by
  obtain ⟨place, hplace⟩ := exists_place call
  rw [h.header, Option.isSome_map, h.url, hplace]
  exact restricted_endpoint

variable {replies : Replies}

theorem converse_unasked {f : RemoteFault} (unasked : c.requestOf call = .error f) :
    (c.answer call).converse replies = ([], .error f) := by
  rw [answer, unasked]
  rfl

/-- A request that can be sent is sent once, and a response to it is read. -/
theorem converse_asked (asked : c.requestOf call = .ok r) (sent : ∃ u, addressOf r = .ok u) :
    ∃ answer, (c.answer call).converse replies = ([⟨r, replies 0 r⟩], answer) ∧
      ∀ response, replies 0 r = .ok response → answer = readAnswer call response := by
  obtain ⟨u, hu⟩ := sent
  rw [answer, asked]
  dsimp only
  rw [hu]
  show ∃ answer, Dialogue.converse replies (.ask r _) = _ ∧ _
  rw [Dialogue.converse]
  cases replies 0 r with
  | ok response =>
    refine ⟨readAnswer call response, rfl, ?_⟩
    intro response' h
    rw [Except.ok.inj h]
  | error outage => cases outage <;> exact ⟨_, rfl, nofun⟩

theorem exists_of_isOk {ε α : Type} {x : Except ε α} (h : x.isOk = true) : ∃ a, x = .ok a := by
  cases x with
  | error e => cases h
  | ok a => exact ⟨a, rfl⟩

end Http.Client

end ChangeDesk
