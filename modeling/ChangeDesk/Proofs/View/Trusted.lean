import ChangeDesk.Proofs.Document.Restated
import ChangeDesk.Proofs.Document.Variant
import ChangeDesk.Proofs.Json.Parts
import ChangeDesk.View.Trust

/-!
# Trust from document to verdict

The verdict on a push follows the words of two documents: whether the configuration asks for signed
pushes, which revision of the change is current, and what stands under its push certificate. No
other name than that of trust earns it, in whichever of its forms the document is, and none makes
the document unreadable.

Main statement: the verdict by the parts of both documents (`Change.verdict_of_documents`).
-/

namespace ChangeDesk

open Json (Node Codec Record bind_ok map_ok)

/-! ### Names -/

/-- The node is a text that names something, or the object form of it. -/
inductive Json.Node.Names (name : String) : Node → Prop where
  | text {q : Json.Quoted} (h : q.text = .ok name) : Names name (.text q)
  | object {k : Node} (h : k.keyText = .ok name) : Names name (.object [(k, .null)] .closed)

theorem Json.Node.Names.unique {a b : String} {v : Node} (h : v.Names a) (h' : v.Names b) :
    a = b := by
  cases h with
  | text h =>
    cases h' with
    | text h' => exact Except.ok.inj (h.symm.trans h')
  | object h =>
    cases h' with
    | object h' => exact Except.ok.inj (h.symm.trans h')

theorem Json.Codec.names_of_enumeration {α : Type} {n : Codec.Names α} {levels : Nat} {v : Node}
    {a : α} (h : (Codec.enumeration n).read levels v = .ok a) :
    ∃ name, v.Names name ∧ n.pick name = .ok a := by
  cases v with
  | text q =>
    obtain ⟨name, hname, hpick⟩ := bind_ok.1 h
    exact ⟨name, .text hname, hpick⟩
  | object members ending =>
    obtain ⟨inner, -, hobject⟩ := bind_ok.1 h
    rcases members with _ | ⟨⟨k, v⟩, rest⟩
    · cases hobject
    · obtain ⟨name, hname, hpick⟩ := bind_ok.1 hobject
      obtain ⟨b, hb, hnull⟩ := bind_ok.1 hpick
      cases v with
      | null =>
        cases rest with
        | nil =>
          cases ending with
          | closed =>
            cases hnull
            exact ⟨name, .object hname, hb⟩
          | _ => cases hnull
        | cons m rest => cases hnull
      | _ => cases hnull
  | gap g => cases g <;> cases h
  | _ => cases h

theorem KeyStatus.eq_trusted_iff {levels : Nat} {v : Node} {status : KeyStatus}
    (h : KeyStatus.codec.read levels v = .ok status) : status = .trusted ↔ v.Names "TRUSTED" := by
  obtain ⟨name, hname, hpick⟩ := Codec.names_of_enumeration h
  constructor
  · rintro rfl
    rw [Codec.Names.pick] at hpick
    split at hpick
    · rename_i a hfind
      obtain rfl := Except.ok.inj hpick
      have hbeq := List.find?_some hfind
      obtain rfl : KeyStatus.name .trusted = name := eq_of_beq hbeq
      exact hname
    · cases hpick
  · intro htrusted
    obtain rfl := hname.unique htrusted
    exact (Except.ok.inj hpick).symm

theorem Json.Codec.boolean_ok {levels : Nat} {v : Node} {b : Bool}
    (h : Codec.boolean.read levels v = .ok b) : v = .bool b := by
  cases v with
  | bool b' =>
    obtain rfl := Except.ok.inj h
    rfl
  | _ => cases h

theorem Json.Codec.texts_ok {levels : Nat} {items : List Node} {ss : List String}
    (h : items.mapM (Codec.text.read levels) = .ok ss) :
    items.filterMap (fun v => v.keyText.toOption) = ss := by
  induction items generalizing ss with
  | nil =>
    cases h
    rfl
  | cons v items ih =>
    rw [List.mapM_cons] at h
    obtain ⟨s, hs, h⟩ := bind_ok.1 h
    obtain ⟨rest, hrest, h⟩ := bind_ok.1 h
    cases h
    have hv : v.keyText.toOption = some s := Json.Node.toOption_of_keyText (text_ok.1 hs)
    rw [List.filterMap_cons, hv, ih hrest]

/-! ### The parts that a verdict depends on -/

/-- The parts of documents that decide on a push, with the fields they are read into. -/
inductive DocumentPart : {ρ γ : Type} → Record ρ → Json.Field ρ → (ρ → γ) → Prop where
  | receive : DocumentPart ServerConfig.record
    (.optional "receive" ReceiveConfig.record.codec ServerConfig.receive
      fun v c => { c with receive := v }) ServerConfig.receive
  | signedPush : DocumentPart ReceiveConfig.record
    (.optional "enable_signed_push" Codec.boolean ReceiveConfig.enableSignedPush
      fun v c => { c with enableSignedPush := v }) ReceiveConfig.enableSignedPush
  | currentId : DocumentPart Change.record
    (.optional "current_revision" RevisionId.codec Change.currentId
      fun v c => { c with currentId := v }) Change.currentId
  | revisions : DocumentPart Change.record
    (.plain "revisions" Revision.codec.dict Change.revisions
      fun v c => { c with revisions := v }) Change.revisions
  | certificate : DocumentPart Revision.record
    (.optional "push_certificate" Certificate.codec Revision.certificate
      fun v r => { r with certificate := v }) Revision.certificate
  | key : DocumentPart Certificate.record
    (.plain "key" SigningKey.codec Certificate.key fun v c => { c with key := v }) Certificate.key
  | status : DocumentPart SigningKey.record statusField SigningKey.status
  | problems : DocumentPart SigningKey.record
    (.plain "problems" Codec.text.list SigningKey.problems
      fun v k => { k with problems := v }) SigningKey.problems

theorem DocumentPart.holds {ρ γ : Type} {t : Record ρ} {f : Json.Field ρ} {get : ρ → γ}
    (h : DocumentPart t f get) : t.Holds f get where
  mem := by
    cases h
    all_goals repeat' first | exact List.mem_cons_self .. | apply List.mem_cons_of_mem
  others := by
    cases h
    all_goals
      repeat' first | exact List.forall_mem_nil _ | refine List.forall_mem_cons.2 ⟨?_, ?_⟩
    -- the other fields set other parts
    all_goals
      intro hne levels w s hs x
      obtain ⟨a, rfl⟩ := Json.Field.Made.exists_set (by constructor) hs
      first | rfl | exact absurd rfl hne

/-- What a configuration says about signed pushes. -/
def signedPushPart? (config : Node) : Option Node := do
  let receive ← ServerConfig.record.given? "receive" config
  ReceiveConfig.record.given? "enable_signed_push" receive

/-- The revision that a change points at. -/
def currentPart? (change : Node) : Option Node := do
  let id ← Change.record.given? "current_revision" change
  let key ← id.keyText.toOption
  let revisions ← Change.record.part? "revisions" change
  revisions.entry? key

def certificatePart? (revision : Node) : Option Node :=
  Revision.record.given? "push_certificate" revision

def statusPart? (certificate : Node) : Option Node := do
  let key ← Certificate.record.part? "key" certificate
  SigningKey.record.given? "status" key

/-- The texts of the problems with a certificate. -/
def problemTexts (certificate : Node) : List String :=
  match (Certificate.record.part? "key" certificate).bind (SigningKey.record.part? "problems") with
  | some (.list items _) => items.filterMap fun v => v.keyText.toOption
  | _ => []

/-- The certificate says that its key is trusted. -/
def Trusted (certificate : Node) : Prop :=
  ∃ status, statusPart? certificate = some status ∧ status.Names "TRUSTED"

section

variable {levels : Nat} {v : Node}

theorem signedPush_iff {config : ServerConfig} (h : ServerConfig.codec.read levels v = .ok config) :
    config.signedPush = true ↔ signedPushPart? v = some (.bool true) := by
  have hreceive := DocumentPart.receive.holds.optional (fun _ _ => rfl) rfl
    DocumentRecord.configuration.orderly h
  rw [ServerConfig.signedPush, signedPushPart?]
  generalize ServerConfig.record.given? "receive" v = part at hreceive
  generalize config.receive = receive at hreceive
  cases hreceive with
  | none => exact ⟨nofun, nofun⟩
  | @some w receive hread =>
    have hsigned := DocumentPart.signedPush.holds.optional (fun _ _ => rfl) rfl
      DocumentRecord.receive.orderly hread
    simp only [Option.bind_some, Option.bind_eq_bind]
    generalize ReceiveConfig.record.given? "enable_signed_push" w = part at hsigned
    generalize receive.enableSignedPush = signed at hsigned
    cases hsigned with
    | none => exact ⟨nofun, nofun⟩
    | some hbool =>
      rw [Codec.boolean_ok hbool]
      simp

theorem read_current {change : Change} (h : Change.codec.read levels v = .ok change) :
    Option.Rel (fun w r => ∃ l, Revision.codec.read l w = .ok r) (currentPart? v)
      change.currentRevision? := by
  have hid := DocumentPart.currentId.holds.optional (fun _ _ => rfl) rfl
    DocumentRecord.change.orderly h
  have hrevisions := DocumentPart.revisions.holds.plain (fun _ _ => rfl)
    DocumentRecord.change.orderly h
  rw [Change.currentRevision?, currentPart?]
  generalize Change.record.given? "current_revision" v = part at hid
  generalize change.currentId = id at hid
  cases hid with
  | none => exact .none
  | @some w id hread =>
    obtain ⟨key, hkey, rfl⟩ := map_ok.1 hread
    have hname := Json.Node.toOption_of_keyText (Codec.text_ok.1 hkey)
    simp only [Option.bind_some, Option.bind_eq_bind, hname, Change.revision?]
    obtain ⟨habsent, hblank⟩ | ⟨revisions, hpart, hread⟩ := hrevisions
    · rw [habsent, hblank]
      exact .none
    · rw [hpart, Option.bind_some]
      have hentry := Codec.entry_of_read hread key
      generalize revisions.entry? key = entry at hentry
      generalize change.revisions.get? key = revision at hentry
      cases hentry with
      | none => exact .none
      | some hrevision => exact .some ⟨_, hrevision⟩

theorem read_certificate {r : Revision} (h : Revision.codec.read levels v = .ok r) :
    Option.Rel (fun w c => Certificate.codec.read (levels - 1) w = .ok c) (certificatePart? v)
      r.certificate :=
  DocumentPart.certificate.holds.optional (fun _ _ => rfl) rfl DocumentRecord.revision.orderly h

theorem status_iff {c : Certificate} (h : Certificate.codec.read levels v = .ok c) :
    c.key.status = some .trusted ↔ Trusted v := by
  rw [Trusted, statusPart?]
  obtain ⟨habsent, hblank⟩ | ⟨w, hpart, hread⟩ := DocumentPart.key.holds.plain (fun _ _ => rfl)
    DocumentRecord.certificate.orderly h
  · rw [habsent, hblank]
    constructor
    · intro hstatus
      cases hstatus
    · intro htrusted
      obtain ⟨status, hstatus, -⟩ := htrusted
      cases hstatus
  · have hstatus := DocumentPart.status.holds.optional (fun _ _ => rfl) rfl
      DocumentRecord.signingKey.orderly hread
    simp only [hpart, Option.bind_some, Option.bind_eq_bind]
    generalize SigningKey.record.given? "status" w = part at hstatus
    generalize c.key.status = status at hstatus
    cases hstatus with
    | none => simp
    | some hstatus =>
      rw [Option.some.injEq, KeyStatus.eq_trusted_iff hstatus]
      simp

theorem problems_eq {c : Certificate} (h : Certificate.codec.read levels v = .ok c) :
    problemTexts v = c.key.problems := by
  rw [problemTexts]
  obtain ⟨habsent, hblank⟩ | ⟨w, hpart, hread⟩ := DocumentPart.key.holds.plain (fun _ _ => rfl)
    DocumentRecord.certificate.orderly h
  · rw [habsent, hblank]
    rfl
  · rw [hpart, Option.bind_some]
    obtain ⟨habsent, hblank⟩ | ⟨problems, hpart, hread⟩ := DocumentPart.problems.holds.plain
      (fun _ _ => rfl) DocumentRecord.signingKey.orderly hread
    · rw [habsent, hblank]
      rfl
    · rw [hpart]
      cases problems with
      | list items ending =>
        obtain ⟨-, htexts, -⟩ := Codec.list_ok.1 hread
        exact Codec.texts_ok htexts
      | _ => cases hread

/-! ### The verdict -/

/-- What a verdict says of a revision. -/
structure Verdict.Follows (verdict : Verdict) (revision : Node) : Prop where
  trusted : verdict.trust.name = "trusted" ↔ ∃ c, certificatePart? revision = some c ∧ Trusted c
  help : verdict.trust.name = "help" ↔ certificatePart? revision = none
  invalid : verdict.trust.name = "invalid" ↔ ∃ c, certificatePart? revision = some c ∧ ¬Trusted c
  message : ∀ c, certificatePart? revision = some c → ¬Trusted c →
    verdict.message = "Push certificate is invalid:\n" ++ "\n".intercalate (problemTexts c)

theorem Verdict.ofCertificate_follows {r : Revision}
    (h : Revision.codec.read levels v = .ok r) : (ofCertificate r.certificate).Follows v := by
  have hcertificate := read_certificate h
  generalize hpart : certificatePart? v = part at hcertificate
  generalize r.certificate = certificate at hcertificate
  cases hcertificate with
  | none => constructor <;> simp [hpart, ofCertificate, Trust.name]
  | @some w c hread =>
    have hstatus := status_iff hread
    have hproblems := problems_eq hread
    by_cases htrusted : Trusted w
    · have hverdict : (ofCertificate (some c)).trust = .trusted := by
        rw [ofCertificate, if_pos (hstatus.2 htrusted)]
      constructor <;> simp [hpart, hverdict, htrusted, Trust.name]
    · have hverdict : ofCertificate (some c) =
          ⟨"Push certificate is invalid:\n" ++ "\n".intercalate c.key.problems, .invalid⟩ := by
        rw [ofCertificate, if_neg (mt hstatus.1 htrusted)]
      constructor <;> simp [hpart, hverdict, htrusted, hproblems, Trust.name]

end

theorem Change.verdict?_eq_none_iff {c : Change} {config : ServerConfig} :
    c.verdict? config = none ↔ config.signedPush ≠ true ∨ c.currentRevision? = none := by
  rw [verdict?]
  split
  · rename_i hsigned
    simp [hsigned]
  · rename_i hsigned
    simp [hsigned]

theorem Change.verdict?_eq_some {c : Change} {config : ServerConfig} {verdict : Verdict}
    (h : c.verdict? config = some verdict) :
    ∃ r, c.currentRevision? = some r ∧ Verdict.ofCertificate r.certificate = verdict := by
  rw [verdict?] at h
  split at h
  · exact Option.map_eq_some_iff.1 h
  · cases h

open Json.Document in
/-- There is a verdict on a push where the configuration asks for signed pushes and the change has a
current revision, and it is one of trust where the status of the key in the certificate of this
revision is the name of trust and nowhere else. Whatever status is named, the change can be read. -/
theorem Change.verdict_of_documents {info detail : String} {config : ServerConfig}
    {change : Change} (hconfig : decode ServerConfig.codec info = .ok config)
    (hchange : decode Change.codec detail = .ok change) :
    (∃ v, Spells v info) ∧ (∃ w, Spells w detail) ∧
    ∀ v w, Spells v info → Spells w detail →
      (change.verdict? config = none ↔
        signedPushPart? v ≠ some (.bool true) ∨ currentPart? w = none) ∧
      (∀ verdict, change.verdict? config = some verdict →
        ∃ revision, currentPart? w = some revision ∧ verdict.Follows revision) ∧
      (∀ w' detail', Relation.ReflTransGen (Restated Change.codec levels) w w' →
        Spells w' detail' → ∃ change', decode Change.codec detail' = .ok change') := by
  refine ⟨spells_of_decode ServerConfig.codec_strict hconfig,
    spells_of_decode Change.codec_strict hchange, ?_⟩
  intro v w hv hw
  rw [hv.decode] at hconfig
  rw [hw.decode] at hchange
  have hsigned := signedPush_iff hconfig
  have hcurrent := read_current hchange
  refine ⟨?_, ?_, ?_⟩
  · rw [verdict?_eq_none_iff, Ne, hsigned]
    generalize currentPart? w = part at hcurrent
    generalize change.currentRevision? = current at hcurrent
    cases hcurrent with
    | none => simp
    | some _ => simp
  · intro verdict hverdict
    obtain ⟨r, hr, rfl⟩ := verdict?_eq_some hverdict
    rw [hr] at hcurrent
    generalize currentPart? w = part at hcurrent
    cases hcurrent with
    | some hread =>
      obtain ⟨l, hread⟩ := hread
      exact ⟨_, rfl, Verdict.ofCertificate_follows hread⟩
  · intro w' detail' hedits hdetail'
    rw [hdetail'.decode]
    exact Restated.serves_all hedits ⟨change, hchange⟩

open Json.Document in
/-- A status that only resembles the name of trust, and the same document with the name itself. -/
theorem Change.verdict_of_documents_lowercase :
    let info : Json.Value := .object [("receive", .object [("enable_signed_push", .bool true)])]
    let detail (status : String) : Json.Value :=
      .object [("current_revision", .text "r"),
        ("revisions", .object [("r", .object [("push_certificate", .object [("key", .object
          [("status", .text status), ("problems", .list [.text "p", .text "q"])])])])])]
    let config : ServerConfig := ⟨some ⟨some true⟩, none, none⟩
    let certificate : Certificate := ⟨"", ⟨none, none, some .unknown, ["p", "q"]⟩⟩
    let change : Change := { Change.blank with
      currentId := some ⟨"r"⟩
      revisions := .ofList [("r", ⟨0, none, none, some certificate, none⟩)] }
    let verdict : Verdict := ⟨"Push certificate is invalid:\np\nq", .invalid⟩
    decode ServerConfig.codec info.toText = .ok config ∧
    decode Change.codec (detail "trusted").toText = .ok change ∧
    Spells info.node info.toText ∧ Spells (detail "trusted").node (detail "trusted").toText ∧
    change.verdict? config = some verdict ∧
    (∃ revision, currentPart? (detail "trusted").node = some revision ∧
      verdict.Follows revision) ∧
    ∃ change', decode Change.codec (detail "TRUSTED").toText = .ok change' := by
  intro info detail config certificate change verdict
  have hinfo : Spells info.node info.toText := spells_toText info
  have hdetail (status : String) : Spells (detail status).node (detail status).toText :=
    spells_toText (detail status)
  have hconfig : decode ServerConfig.codec info.toText = .ok config := hinfo.decode.trans rfl
  have hchange : decode Change.codec (detail "trusted").toText = .ok change :=
    (hdetail "trusted").decode.trans rfl
  obtain ⟨-, -, h⟩ := verdict_of_documents hconfig hchange
  obtain ⟨-, hverdict, hserves⟩ := h _ _ hinfo (hdetail "trusted")
  have hkey (s : String) : (Node.text (.written s)).keyText = .ok s := Json.Quoted.text_written s
  have hstatus : Restated SigningKey.codec (levels - 4)
      (.object (Json.Value.memberNodes
        [("status", .text "trusted"), ("problems", .list [.text "p", .text "q"])]) .closed)
      (.object (Json.Value.memberNodes
        [("status", .text "TRUSTED"), ("problems", .list [.text "p", .text "q"])]) .closed) :=
    .replaced [] _ (hkey "status") (hkey "TRUSTED")
  have hedit : Restated Change.codec levels (detail "trusted").node (detail "TRUSTED").node :=
    .field [(.text (.written "current_revision"), .text (.written "r"))] [] .change
      DocumentPart.revisions.holds.mem (.plain ..) (hkey "revisions")
      (.entry [] [] (.field [] [] .revision DocumentPart.certificate.holds.mem (.optional ..)
        (hkey "push_certificate") (.field [] [] .certificate DocumentPart.key.holds.mem
          (.plain ..) (hkey "key") hstatus)))
  have hinvalid : change.verdict? config = some verdict := by decide +kernel
  exact ⟨hconfig, hchange, hinfo, hdetail "trusted", hinvalid, hverdict verdict hinvalid,
    hserves _ _ (.single hedit) (hdetail "TRUSTED")⟩

end ChangeDesk
