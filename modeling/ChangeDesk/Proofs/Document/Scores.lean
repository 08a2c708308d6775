import ChangeDesk.Proofs.Document.Buffered
import ChangeDesk.Proofs.Document.Restated
import ChangeDesk.Proofs.Document.RoundTrip
import ChangeDesk.Proofs.Document.Variant
import ChangeDesk.Proofs.Json.Parts
import ChangeDesk.Proofs.Text.ByteOrder
import ChangeDesk.Proofs.Text.Number

/-!
# The values of a label by their scores

The permitted values of a label come as an object under names that need not be trimmed, and several
names may be one value when they are. The names are sorted as they are, then trimmed, then sorted by
score, and this second sort is stable: names of one score, and names that are no scores, stay in the
order of their bytes, blanks included.

Main statement: the values of every label that is read from a document (`Label.decode_values`).
-/

namespace ChangeDesk

open Json (Node bind_ok seq_ok)

/-! ### The keys of a dictionary -/

namespace Dict

variable {α : Type} {d : Dict α} {k x : String} {a : α}

theorem mem_keys_iff : x ∈ d.keys ↔ ∃ a, d.get? x = some a := by
  simp only [keys, List.mem_map, ← mem_entries_iff]
  constructor
  · rintro ⟨⟨key, a⟩, hmem, rfl⟩
    exact ⟨a, hmem⟩
  · rintro ⟨a, hmem⟩
    exact ⟨(x, a), hmem, rfl⟩

theorem mem_keys_insert : x ∈ (d.insert k a).keys ↔ x = k ∨ x ∈ d.keys := by
  rw [mem_keys_iff, mem_keys_iff, get?_insert]
  by_cases h : x = k <;> simp [h]

theorem mem_keys_ofList {es : List (String × α)} :
    x ∈ (ofList es).keys ↔ ∃ e ∈ es, e.1 = x := by
  have hfold : ∀ d : Dict α,
      x ∈ (es.foldl (fun d e => d.insert e.1 e.2) d).keys ↔ x ∈ d.keys ∨ ∃ e ∈ es, e.1 = x := by
    induction es with
    | nil => simp
    | cons e es ih =>
      intro d
      rw [List.foldl_cons, ih, mem_keys_insert, List.exists_mem_cons_iff, eq_comm]
      tauto
  rw [ofList, hfold]
  simp [empty, keys]

theorem pairwise_keys (d : Dict α) : d.keys.Pairwise (· < ·) := List.pairwise_map.2 d.sorted

end Dict

/-! ### Stable sorting -/

/-- Items that may stand in any order stay as they are. -/
theorem filter_mergeSort {α : Type} {le : α → α → Bool} {p : α → Bool}
    (trans : ∀ a b c, le a b = true → le b c = true → le a c = true)
    (total : ∀ a b, (le a b || le b a) = true)
    (tied : ∀ a b, p a = true → p b = true → le a b = true) (as : List α) :
    (as.mergeSort le).filter p = as.filter p := by
  have hpairs : (as.filter p).Pairwise fun a b => le a b = true := by
    rw [List.pairwise_filter]
    exact List.pairwise_of_forall fun a b ha hb => tied a b ha hb
  have hkept : (as.filter p).Sublist (as.mergeSort le) :=
    List.sublist_mergeSort trans total hpairs List.filter_sublist
  have hfilter : (as.filter p).Sublist ((as.mergeSort le).filter p) := by
    have htwice := hkept.filter p
    simpa only [List.filter_filter, Bool.and_self] using htwice
  have hperm := (List.mergeSort_perm as le).filter p
  exact (hfilter.eq_of_length hperm.length_eq.symm).symm

namespace Label

variable {a b name : String} {m n : Int} {keys : List String}

/-! ### Names and scores -/

/-- The name is a number of 32 bits with its sign, and has blanks around it or none. -/
def Scores (name : String) (score : Int) : Prop :=
  Text.Integer (Text.trim name.toList) score ∧ -2147483648 ≤ score ∧ score ≤ 2147483647

/-- The order of names: by score, those that are no scores at the end, and where that does not
decide by their bytes. -/
inductive Precedes (a b : String) : Prop where
  | lower {m n : Int} (left : Scores a m) (right : Scores b n) (lower : m < n)
  | level {m : Int} (left : Scores a m) (right : Scores b m) (bytes : Text.bytes a < Text.bytes b)
  | scored {m : Int} (left : Scores a m) (right : ∀ n, ¬ Scores b n)
  | unscored (left : ∀ m, ¬ Scores a m) (right : ∀ n, ¬ Scores b n)
    (bytes : Text.bytes a < Text.bytes b)

/-- The place of a name in the order of scores. -/
def rank (name : String) : Nat × Int := scoreRank (Text.trimmed name)

theorem readInteger?_scores :
    Text.readInteger? (UInt32.size / 2 - 1) (Text.trimmed name).toList = some m ↔ Scores name m := by
  rw [Text.readInteger?_eq_some, Text.trimmed, String.toList_ofList]
  rfl

theorem rank_scored (h : Scores name m) : rank name = (0, m) := by
  rw [rank, scoreRank, readInteger?_scores.2 h]

theorem rank_unscored (h : ∀ m, ¬ Scores name m) : rank name = (1, 0) := by
  have hnone : Text.readInteger? (UInt32.size / 2 - 1) (Text.trimmed name).toList = none := by
    rw [Option.eq_none_iff_forall_ne_some]
    exact fun m hm => h m (readInteger?_scores.1 hm)
  rw [rank, scoreRank, hnone]

theorem scoreLe_trimmed :
    scoreLe (Text.trimmed a) (Text.trimmed b) = true ↔
      (rank a).1 < (rank b).1 ∨ ((rank a).1 = (rank b).1 ∧ (rank a).2 ≤ (rank b).2) := by
  unfold scoreLe rank
  generalize scoreRank (Text.trimmed a) = x
  generalize scoreRank (Text.trimmed b) = y
  simp only [Bool.or_eq_true, Bool.and_eq_true, beq_iff_eq, decide_eq_true_eq]

/-- A name precedes another if it may stand before it, and is less where both could. -/
theorem precedes_iff :
    Precedes a b ↔
      scoreLe (Text.trimmed a) (Text.trimmed b) = true ∧ (rank a = rank b → a < b) := by
  rw [scoreLe_trimmed]
  constructor
  · intro h
    cases h with
    | lower left right lower =>
      rw [rank_scored left, rank_scored right]
      exact ⟨.inr ⟨rfl, Int.le_of_lt lower⟩,
        fun heq => absurd (congrArg Prod.snd heq) (Int.ne_of_lt lower)⟩
    | level left right bytes =>
      rw [rank_scored left, rank_scored right]
      exact ⟨.inr ⟨rfl, Int.le_refl _⟩, fun _ => Text.bytes_lt_bytes.1 bytes⟩
    | scored left right =>
      rw [rank_scored left, rank_unscored right]
      exact ⟨.inl Nat.one_pos, nofun⟩
    | unscored left right bytes =>
      rw [rank_unscored left, rank_unscored right]
      exact ⟨.inr ⟨rfl, Int.le_refl _⟩, fun _ => Text.bytes_lt_bytes.1 bytes⟩
  · rintro ⟨hle, htie⟩
    by_cases ha : ∃ m, Scores a m
    · obtain ⟨m, ha⟩ := ha
      by_cases hb : ∃ n, Scores b n
      · obtain ⟨n, hb⟩ := hb
        rw [rank_scored ha, rank_scored hb] at hle htie
        obtain hlt | heq : m < n ∨ m = n := by
          dsimp only at hle
          omega
        · exact .lower ha hb hlt
        · subst heq
          exact .level ha hb (Text.bytes_lt_bytes.2 (htie rfl))
      · exact .scored ha (not_exists.1 hb)
    · rw [rank_unscored (not_exists.1 ha)] at hle htie
      by_cases hb : ∃ n, Scores b n
      · obtain ⟨n, hb⟩ := hb
        rw [rank_scored hb] at hle
        dsimp only at hle
        omega
      · rw [rank_unscored (not_exists.1 hb)] at htie
        exact .unscored (not_exists.1 ha) (not_exists.1 hb) (Text.bytes_lt_bytes.2 (htie rfl))

instance (a b : String) : Decidable (Precedes a b) := decidable_of_iff _ precedes_iff.symm

theorem Precedes.asymm (h : Precedes a b) : ¬ Precedes b a := by
  intro h'
  obtain ⟨hle, htie⟩ := precedes_iff.1 h
  obtain ⟨hle', htie'⟩ := precedes_iff.1 h'
  rw [scoreLe_trimmed] at hle hle'
  have hrank : rank a = rank b := Prod.ext (by omega) (by omega)
  exact String.lt_asymm (htie hrank) (htie' hrank.symm)

/-! ### The order of a dictionary, sorted by scores -/

/-- Names by score. -/
def sortNames (keys : List String) : List String :=
  keys.mergeSort fun a b => scoreLe (Text.trimmed a) (Text.trimmed b)

theorem sortScores_trimmed (keys : List String) :
    sortScores (keys.map Text.trimmed) = (sortNames keys).map Text.trimmed := by
  rw [sortScores, sortNames, List.map_mergeSort]
  exact fun _ _ _ _ => rfl

theorem scoreLe_trans (a b c : String)
    (hab : scoreLe (Text.trimmed a) (Text.trimmed b) = true)
    (hbc : scoreLe (Text.trimmed b) (Text.trimmed c) = true) :
    scoreLe (Text.trimmed a) (Text.trimmed c) = true := by
  rw [scoreLe_trimmed] at hab hbc ⊢
  omega

theorem scoreLe_total (a b : String) :
    (scoreLe (Text.trimmed a) (Text.trimmed b) || scoreLe (Text.trimmed b) (Text.trimmed a)) =
      true := by
  rw [Bool.or_eq_true, scoreLe_trimmed, scoreLe_trimmed]
  omega

theorem pairwise_sortNames (h : keys.Pairwise (· < ·)) : (sortNames keys).Pairwise Precedes := by
  have hle := List.pairwise_mergeSort scoreLe_trans scoreLe_total keys
  rw [List.pairwise_iff_forall_sublist] at hle ⊢
  intro a b hab
  refine precedes_iff.2 ⟨hle hab, ?_⟩
  intro htie
  -- among the names of this rank both stand as they stood in the dictionary
  have htied : (sortNames keys).filter (fun c => rank c = rank b) =
      keys.filter fun c => rank c = rank b := by
    refine filter_mergeSort scoreLe_trans scoreLe_total ?_ keys
    intro c d hc hd
    rw [scoreLe_trimmed, of_decide_eq_true hc, of_decide_eq_true hd]
    exact .inr ⟨rfl, Int.le_refl _⟩
  have hpair := hab.filter fun c => rank c = rank b
  rw [htied] at hpair
  have hkept : [a, b].filter (fun c => rank c = rank b) = [a, b] := by simp [htie]
  rw [hkept] at hpair
  exact (List.pairwise_cons.1 (h.sublist (hpair.trans List.filter_sublist))).1 b
    (List.mem_singleton_self b)

/-! ### What is read -/

variable {ms ms' : List (Node × Node)} {items : List Node} {values values' : List String}
  {levels : Nat} {v v' w : Node}

/-- A member of the object has the name. -/
def Named (ms : List (Node × Node)) (name : String) : Prop := ∃ m ∈ ms, m.1.keyText = .ok name

/-- The values are the names of the members, each name once and trimmed, in the order of names. -/
def Ranked (ms : List (Node × Node)) (values : List String) : Prop :=
  ∃ names : List String, names.Nodup ∧ (∀ name, name ∈ names ↔ Named ms name) ∧
    names.Pairwise Precedes ∧ values = names.map Text.trimmed

/-- The names determine the values. -/
theorem Ranked.unique (h : Ranked ms values) (h' : Ranked ms' values')
    (same : ∀ name, Named ms name ↔ Named ms' name) : values = values' := by
  obtain ⟨names, hnodup, hmem, hsorted, rfl⟩ := h
  obtain ⟨names', hnodup', hmem', hsorted', rfl⟩ := h'
  have hperm : names.Perm names' := by
    rw [List.perm_ext_iff_of_nodup hnodup hnodup']
    intro name
    rw [hmem, hmem', same]
  have hasymm : ∀ a b, a ∈ names → b ∈ names' → Precedes a b → Precedes b a → a = b :=
    fun a b _ _ hab hba => absurd hba hab.asymm
  rw [hperm.eq_of_pairwise hasymm hsorted hsorted']

theorem readTextEntry_ok {m : Node × Node} {e : String × String} :
    readTextEntry m = .ok e ↔ m.1.keyText = .ok e.1 ∧ m.2.keyText = .ok e.2 := by
  rw [readTextEntry, bind_ok]
  constructor
  · rintro ⟨key, hkey, h⟩
    obtain ⟨value, hvalue, he⟩ := bind_ok.1 h
    cases he
    exact ⟨hkey, Json.Codec.text_ok.1 hvalue⟩
  · rintro ⟨hkey, hvalue⟩
    exact ⟨e.1, hkey, bind_ok.2 ⟨e.2, Json.Codec.text_ok.2 hvalue, rfl⟩⟩

theorem named_iff {es : List (String × String)} (h : ms.mapM readTextEntry = .ok es) :
    Named ms name ↔ ∃ e ∈ es, e.1 = name := by
  induction Json.mapM_ok.1 h with
  | nil => simp [Named]
  | @cons m e ms es hm hms ih =>
    have hkey := (readTextEntry_ok.1 hm).1
    have hrest := ih (Json.mapM_ok.2 hms)
    rw [Named] at hrest ⊢
    rw [List.exists_mem_cons_iff, List.exists_mem_cons_iff, hrest, hkey, Except.ok.injEq]

theorem ranked_of_read {ending : Json.ObjectEnd}
    (h : valuesCodec.read levels (.object ms ending) = .ok values) : Ranked ms values := by
  obtain ⟨-, es, hes, rfl⟩ := readValues_object.1 h
  have hsorted := (Dict.ofList es).pairwise_keys
  have hperm : (sortNames (Dict.ofList es).keys).Perm (Dict.ofList es).keys :=
    List.mergeSort_perm ..
  refine ⟨sortNames (Dict.ofList es).keys, ?_, ?_, pairwise_sortNames hsorted,
    sortScores_trimmed _⟩
  · rw [hperm.nodup_iff]
    exact hsorted.imp fun hlt => String.ne_of_lt hlt
  · intro name
    rw [hperm.mem_iff, Dict.mem_keys_ofList, named_iff hes]

theorem list_of_read {ending : Json.ListEnd}
    (h : valuesCodec.read levels (.list items ending) = .ok values) :
    List.Forall₂ (fun item value => item.keyText = .ok value) items values := by
  obtain ⟨-, h⟩ := seq_ok.1 h
  dsimp only at h
  cases hread : items.mapM (Json.Codec.text.read 0) with
  | error f =>
    rw [hread] at h
    cases h
  | ok texts =>
    rw [hread] at h
    cases h
    exact (Json.mapM_ok.1 hread).imp fun _ _ htext => Json.Codec.text_ok.1 htext

/-- An object or a list of texts. -/
inductive Texts : Node → Prop where
  | object {ms : List (Node × Node)} (names : ∀ m ∈ ms, ∃ name, m.1.keyText = .ok name)
    (texts : ∀ m ∈ ms, ∃ text, m.2.keyText = .ok text) : Texts (.object ms .closed)
  | list {items : List Node} (texts : ∀ item ∈ items, ∃ text, item.keyText = .ok text) :
    Texts (.list items .closed)

theorem check_of_keyText {text : String} (h : v.keyText = .ok text) (levels : Nat) :
    v.check levels = .ok () := by
  cases v with
  | text q => exact bind_ok.2 ⟨text, h, rfl⟩
  | _ => cases h

theorem exists_mapM {ε α β : Type} {f : α → Except ε β} {as : List α}
    (h : ∀ a ∈ as, ∃ b, f a = .ok b) : ∃ bs, as.mapM f = .ok bs := by
  induction as with
  | nil => exact ⟨[], rfl⟩
  | cons a as ih =>
    obtain ⟨b, hb⟩ := h a (List.mem_cons_self ..)
    obtain ⟨bs, hbs⟩ := ih fun a' ha' => h a' (List.mem_cons_of_mem _ ha')
    exact ⟨b :: bs, Json.mapM_ok.2 (.cons hb (Json.mapM_ok.1 hbs))⟩

/-- Texts are always read. -/
theorem Texts.read (h : Texts w) (hl : 1 < levels) :
    ∃ values, valuesCodec.read levels w = .ok values := by
  cases h with
  | @object ms names texts =>
    have hcheck : (Node.object ms .closed).check levels = .ok () := by
      refine bind_ok.2 ⟨levels - 1, Node.enter_ok.2 ⟨hl, rfl⟩, seq_ok.2 ⟨?_, rfl⟩⟩
      rw [Node.checkMembers_ok]
      intro m hm
      obtain ⟨text, htext⟩ := texts m hm
      exact ⟨names m hm, check_of_keyText htext _⟩
    obtain ⟨es, hes⟩ : ∃ es, ms.mapM readTextEntry = .ok es := by
      refine exists_mapM ?_
      intro m hm
      obtain ⟨name, hname⟩ := names m hm
      obtain ⟨text, htext⟩ := texts m hm
      exact ⟨(name, text), readTextEntry_ok.2 ⟨hname, htext⟩⟩
    exact ⟨_, readValues_object.2 ⟨hcheck, es, hes, rfl⟩⟩
  | @list items texts =>
    have hcheck : (Node.list items .closed).check levels = .ok () := by
      refine bind_ok.2 ⟨levels - 1, Node.enter_ok.2 ⟨hl, rfl⟩, seq_ok.2 ⟨?_, rfl⟩⟩
      rw [Node.checkItems_ok]
      intro item hitem
      obtain ⟨text, htext⟩ := texts item hitem
      exact check_of_keyText htext _
    obtain ⟨values, hread⟩ : ∃ values, items.mapM (Json.Codec.text.read 0) = .ok values := by
      refine exists_mapM ?_
      intro item hitem
      obtain ⟨text, htext⟩ := texts item hitem
      exact ⟨text, Json.Codec.text_ok.2 htext⟩
    refine ⟨values, seq_ok.2 ⟨hcheck, ?_⟩⟩
    dsimp only
    rw [hread]
    rfl

/-! ### Labels -/

def valuesField : Json.Field Label :=
  .plain "values" valuesCodec Label.values fun v l => { l with values := v }

theorem valuesField_holds : record.Holds valuesField Label.values where
  mem := List.mem_cons_of_mem _ (List.mem_cons_of_mem _ (List.mem_cons_self ..))
  others := by
    repeat' first | exact List.forall_mem_nil _ | refine List.forall_mem_cons.2 ⟨?_, ?_⟩
    -- the other fields set other parts
    all_goals
      intro hne levels w s hs x
      obtain ⟨a, rfl⟩ := Json.Field.Made.exists_set (by constructor) hs
      first | rfl | exact absurd rfl hne

/-- In a label other values are given: in the place of those there are, or where there are none. -/
inductive Revalued : Node → Node → Prop where
  | replaced {k v w : Node} (before after : List (Node × Node)) (hk : k.keyText = .ok "values")
    (hw : Texts w) :
    Revalued (.object (before ++ (k, v) :: after) .closed)
      (.object (before ++ (k, w) :: after) .closed)
  | added {k w : Node} (before after : List (Node × Node)) (hk : k.keyText = .ok "values")
    (hw : Texts w) (absent : ∀ m ∈ before ++ after, m.1.keyText ≠ .ok "values") :
    Revalued (.object (before ++ after) .closed) (.object (before ++ (k, w) :: after) .closed)
  | placed {v w : Node} (before after : List Node) (place : before.length = 2) (hw : Texts w) :
    Revalued (.list (before ++ v :: after) .closed) (.list (before ++ w :: after) .closed)

theorem Revalued.serves (h : Revalued v v') :
    Json.Serves (codec.read Json.Document.levels v) (codec.read Json.Document.levels v') := by
  have hfield : ∀ {w}, Texts w →
      ∃ s, valuesField.read (Json.Document.levels - 1) w = .ok s := by
    intro w hw
    have hlevels : 1 < Json.Document.levels - 1 := by decide
    obtain ⟨values, hread⟩ := hw.read hlevels
    exact ⟨_, Json.map_ok.2 ⟨values, hread, rfl⟩⟩
  cases h with
  | replaced before after hk hw =>
    exact Json.Record.serves_field DocumentRecord.label.orderly valuesField_holds.mem hk
      (fun _ => hfield hw) .closed
  | added before after hk hw absent =>
    obtain ⟨s, hs⟩ := hfield hw
    exact Json.Record.serves_added DocumentRecord.label.orderly valuesField_holds.mem hk hs absent
      .closed
  | placed before after place hw =>
    have hfields : record.fields =
        record.fields.take 2 ++ valuesField :: record.fields.drop 3 := rfl
    exact Json.Record.serves_position (fun _ => hfield hw) hfields place.symm .closed

theorem read_values {label : Label} (h : codec.read Json.Document.levels v = .ok label)
    (hw : record.part? "values" v = some w) :
    valuesCodec.read (Json.Document.levels - 1) w = .ok label.values := by
  obtain ⟨hnone, -⟩ | ⟨w', hsome, hread⟩ :=
    valuesField_holds.plain (fun _ _ => rfl) DocumentRecord.label.orderly h
  · cases hw.symm.trans hnone
  · obtain rfl := Option.some.inj (hw.symm.trans hsome)
    exact hread

open Json.Document in
/-- The values of a label that is read from a document. Where they are given as an object they are
its names, each once and trimmed, in the order of names, so they depend on nothing but the names of
the members. Where they are given as a list they are its texts. Either is taken wherever a label can
be read without values or with others, and the values are read back from the document that is
written of the label. -/
theorem decode_values {doc : String} {label : Label} (h : decode codec doc = .ok label) :
    (∃ v, Spells v doc) ∧ decode codec (encode codec label) = .ok label ∧
    ∀ v, Spells v doc →
      (∀ ms ending, record.part? "values" v = some (.object ms ending) →
        Ranked ms label.values ∧
        ∀ doc' label' v' ms' ending', decode codec doc' = .ok label' → Spells v' doc' →
          record.part? "values" v' = some (.object ms' ending') →
          (∀ name, Named ms name ↔ Named ms' name) → label.values = label'.values) ∧
      (∀ items ending, record.part? "values" v = some (.list items ending) →
        List.Forall₂ (fun item value => item.keyText = .ok value) items label.values) ∧
      (∀ v' doc', Revalued v v' → Spells v' doc' →
        ∃ label', decode codec doc' = .ok label') := by
  have hranked : ∀ {doc label v ms ending}, decode codec doc = .ok label → Spells v doc →
      record.part? "values" v = some (.object ms ending) → Ranked ms label.values := by
    intro doc label v ms ending h hv hobject
    rw [hv.decode] at h
    exact ranked_of_read (read_values h hobject)
  have hempty : Text.allBlank "" = true := rfl
  have hencode := (codec_lawful.decode_blanks (by decide) hempty label).1
  rw [String.empty_append] at hencode
  refine ⟨spells_of_decode codec_strict h, hencode, ?_⟩
  intro v hv
  refine ⟨?_, ?_, ?_⟩
  · intro ms ending hobject
    refine ⟨hranked h hv hobject, ?_⟩
    intro doc' label' v' ms' ending' h' hv' hobject' same
    exact (hranked h hv hobject).unique (hranked h' hv' hobject') same
  · intro items ending hlist
    rw [hv.decode] at h
    exact list_of_read (read_values h hlist)
  · intro v' doc' hrevalued hv'
    rw [hv.decode] at h
    rw [hv'.decode]
    exact hrevalued.serves ⟨label, h⟩

theorem named_memberNodes {members : List (String × Json.Value)} :
    Named (Json.Value.memberNodes members) name ↔ name ∈ members.map (·.1) := by
  have hkey (s : String) : (Node.text (.written s)).keyText = .ok s := Json.Quoted.text_written s
  simp [Named, Json.Value.memberNodes_eq_map, hkey]

open Json.Document in
/-- Three names of one score, one of them with a blank, a number that is too large for a score, and
a name that is none, in the place of a list. -/
theorem decode_values_tied :
    let listed : Json.Value := .object [("values", .list [.text " 1", .text "0"])]
    let members : List (String × Json.Value) :=
      ["x", "+2", "0", "2147483648", " 0", "-1", "+0"].map fun name => (name, .text "")
    let scored : Json.Value := .object [("values", .object members)]
    decode codec listed.toText = .ok { record.blank with values := [" 1", "0"] } ∧
    ∃ label, decode codec scored.toText = .ok label ∧
      label.values = ["-1", "0", "+0", "0", "+2", "2147483648", "x"] := by
  intro listed members scored
  have hlisted : Spells listed.node listed.toText := spells_toText listed
  have hscored : Spells scored.node scored.toText := spells_toText scored
  have hread : decode codec listed.toText =
      .ok { record.blank with values := [" 1", "0"] } := hlisted.decode.trans rfl
  have hkey (s : String) : (Node.text (.written s)).keyText = .ok s := Json.Quoted.text_written s
  have htexts : Texts (Json.Value.object members).node := by
    have hmember : ∀ m ∈ Json.Value.memberNodes members, ∃ name,
        m = (.text (.written name), .text (.written "")) := by
      simp [members, Json.Value.memberNodes, Json.Value.node]
    refine .object ?_ ?_
    · intro m hm
      obtain ⟨name, rfl⟩ := hmember m hm
      exact ⟨name, hkey name⟩
    · intro m hm
      obtain ⟨name, rfl⟩ := hmember m hm
      exact ⟨"", hkey ""⟩
  have hrevalued : Revalued listed.node scored.node := .replaced [] [] (hkey "values") htexts
  obtain ⟨label, hlabel⟩ := ((decode_values hread).2.2 _ hlisted).2.2 _ _ hrevalued hscored
  have hpart : record.part? "values" scored.node =
      some (.object (Json.Value.memberNodes members) .closed) := rfl
  have hranked := (((decode_values hlabel).2.2 _ hscored).1 _ _ hpart).1
  have hnames : Ranked (Json.Value.memberNodes members)
      ["-1", "0", "+0", "0", "+2", "2147483648", "x"] := by
    refine ⟨["-1", " 0", "+0", "0", "+2", "2147483648", "x"], by decide, ?_, by decide +kernel,
      by decide +kernel⟩
    intro name
    rw [named_memberNodes]
    exact (List.Perm.mem_iff (by decide))
  exact ⟨hread, label, hlabel, hranked.unique hnames fun _ => Iff.rfl⟩

end Label

end ChangeDesk
