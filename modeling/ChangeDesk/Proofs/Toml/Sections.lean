import ChangeDesk.Toml.Lemmas

/-!
# Written sections are read back

A written configuration is a sequence of lines, and each of them is read back by itself: a header
opens a table, and every line under it defines a key there. `Reads` says what a text leads to from
some line on, so that sections can be read one after the other.

Main statement: tables of strings under one key are read back in their order
(`read_write_tables`).
-/

namespace ChangeDesk.Toml

/-! ### Written keys -/

/-- A key that is written begins with such a character. -/
def beginsKey (c : Char) : Bool := isBareChar c || c == '"' || c == '\''

theorem beginsKey_ne {c : Char} (h : beginsKey c = true) :
    isGap c = false ∧ c ≠ '[' ∧ c ≠ '\n' ∧ c ≠ '\r' ∧ c ≠ '#' := by
  refine ⟨?_, ?_, ?_, ?_, ?_⟩
  · rw [← Bool.not_eq_true]
    intro hgap
    simp only [isGap, Bool.or_eq_true, beq_iff_eq] at hgap
    obtain rfl | rfl := hgap <;> revert h <;> decide
  all_goals
    rintro rfl
    revert h
    decide

theorem writeForm_cons (form : Form) (cs : List Char) :
    ∃ c r, writeForm form cs = c :: r ∧ (c = '"' ∨ c = '\'') := by
  cases form with
  | basic => exact ⟨_, _, rfl, .inl rfl⟩
  | literal => exact ⟨_, _, rfl, .inr rfl⟩
  | longBasic => exact ⟨_, _, rfl, .inl rfl⟩
  | longLiteral => exact ⟨_, _, rfl, .inr rfl⟩

theorem writeKey_cons (s : String) : ∃ c r, writeKey s = c :: r ∧ beginsKey c = true := by
  rw [writeKey]
  split
  · rename_i hbare
    generalize s.toList = cs at hbare
    cases cs with
    | nil => cases hbare
    | cons c r =>
      simp only [List.all_cons, Bool.and_eq_true] at hbare
      exact ⟨c, r, rfl, by simp only [beginsKey, hbare.2.1, Bool.true_or]⟩
  · obtain ⟨c, r, hwrite, hquote⟩ := writeForm_cons (keyFormOf s.toList) s.toList
    refine ⟨c, r, hwrite, ?_⟩
    obtain rfl | rfl := hquote <;> decide

theorem skipGap_cons {c : Char} (h : isGap c = false) (r : List Char) :
    skipGap (c :: r) = c :: r := by
  rw [skipGap, List.dropWhile_cons_of_neg]
  rw [h]
  decide

theorem skipGap_writeKey (s : String) (rest : List Char) :
    skipGap (writeKey s ++ rest) = writeKey s ++ rest := by
  obtain ⟨c, r, hwrite, hbegins⟩ := writeKey_cons s
  rw [hwrite, List.cons_append]
  exact skipGap_cons (beginsKey_ne hbegins).1 _

theorem readKey_last (n : Nat) (s : String) {rest : List Char}
    (bare : rest.head?.all (fun c => !isBareChar c) = true)
    (dot : (skipGap rest).head? ≠ some '.') :
    readKey (n + 1) (writeKey s ++ rest) = some ([s], skipGap rest) := by
  rw [readKey, skipGap_writeKey, readKeyPart_writeKey s bare]
  simp only [Option.bind_eq_bind, Option.bind_some]
  split
  · rename_i r hrest
    rw [hrest] at dot
    exact absurd rfl dot
  · rfl

theorem readKey_dot (n : Nat) (s : String) (rest : List Char) :
    readKey (n + 1) (writeKey s ++ '.' :: rest) =
      (readKey n rest).map fun p => (s :: p.1, p.2) := by
  have hdot : skipGap ('.' :: rest) = '.' :: rest := skipGap_cons rfl rest
  rw [readKey, skipGap_writeKey, readKeyPart_writeKey s rfl]
  simp only [Option.bind_eq_bind, Option.bind_some, hdot]
  cases readKey n rest <;> rfl

theorem readKey_path (path : List String) (n : Nat) (ne : path ≠ []) (short : path.length ≤ n)
    {rest : List Char} (bare : rest.head?.all (fun c => !isBareChar c) = true)
    (dot : (skipGap rest).head? ≠ some '.') :
    readKey n (['.'].intercalate (path.map writeKey) ++ rest) = some (path, skipGap rest) := by
  induction path generalizing n with
  | nil => exact absurd rfl ne
  | cons s path ih =>
    obtain ⟨n, rfl⟩ : ∃ k, n = k + 1 := ⟨n - 1, by simp only [List.length_cons] at short; omega⟩
    cases path with
    | nil =>
      have hsingle : ['.'].intercalate ([s].map writeKey) = writeKey s := by
        simp [List.intercalate]
      rw [hsingle]
      exact readKey_last n s bare dot
    | cons t path =>
      have hsplit : ['.'].intercalate ((s :: t :: path).map writeKey) ++ rest =
          writeKey s ++ '.' :: (['.'].intercalate ((t :: path).map writeKey) ++ rest) := by
        simp [List.intercalate]
      simp only [List.length_cons] at short
      rw [hsplit, readKey_dot, ih n (by nofun) (by simp only [List.length_cons]; omega)]
      rfl

/-! ### Written lines -/

theorem endLine_lineFeed (rest : List Char) : endLine ('\n' :: rest) = some rest := by
  have hgap : skipGap ('\n' :: rest) = '\n' :: rest := skipGap_cons rfl rest
  rw [endLine, hgap]
  rfl

theorem readValue_writeText (n depth : Nat) (s : String) {rest : List Char}
    (hd : rest.head? ≠ some '"') (hs : rest.head? ≠ some '\'') :
    readValue (n + 1) depth (writeText s ++ rest) = some (.text s, rest) := by
  have hread := readText_writeText s hd hs
  obtain ⟨c, r, hwrite, hquote⟩ := writeForm_cons (formOf s.toList) s.toList
  have hcons : writeText s ++ rest = c :: (r ++ rest) := by
    rw [writeText, hwrite, List.cons_append]
  rw [hcons] at hread ⊢
  obtain rfl | rfl := hquote <;> rw [readValue, hread] <;> rfl

theorem skipGap_writeText (s : String) (rest : List Char) :
    skipGap (' ' :: (writeText s ++ rest)) = writeText s ++ rest := by
  obtain ⟨c, r, hwrite, hquote⟩ := writeForm_cons (formOf s.toList) s.toList
  rw [writeText, hwrite, List.cons_append, skipGap, List.dropWhile_cons_of_pos rfl]
  apply skipGap_cons
  obtain rfl | rfl := hquote <;> decide

/-- A line that defines a key. -/
def writeDefinition (m : String × String) : List Char :=
  writeKey m.1 ++ [' ', '=', ' '] ++ writeText m.2 ++ ['\n']

theorem readLine_definition (header : List String) (root : Members) (m : String × String)
    (rest : List Char) :
    readLine header root (writeDefinition m ++ rest) =
      (defineUnder header [m.1] (.text m.2) root).map fun root' => (header, root', rest) := by
  obtain ⟨k, s⟩ := m
  have hline : writeDefinition (k, s) ++ rest =
      writeKey k ++ (' ' :: '=' :: ' ' :: (writeText s ++ '\n' :: rest)) := by
    simp [writeDefinition]
  have hkey : readKey depthLimit.pred
      (writeKey k ++ (' ' :: '=' :: ' ' :: (writeText s ++ '\n' :: rest))) =
      some ([k], '=' :: ' ' :: (writeText s ++ '\n' :: rest)) :=
    readKey_last 78 k rfl (by nofun)
  obtain ⟨c, r, hwrite, hbegins⟩ := writeKey_cons k
  have hbracket : c ≠ '[' := (beginsKey_ne hbegins).2.1
  rw [hline, readLine]
  · rw [hkey]
    simp only [Option.bind_eq_bind, Option.bind_some]
    rw [skipGap_writeText, readValue_writeText _ _ s (by nofun) (by nofun)]
    simp only [Option.bind_some, endLine_lineFeed]
    cases defineUnder header [k] (.text s) root <;> rfl
  all_goals
    intro r' hbad
    rw [hwrite] at hbad
    exact hbracket (List.cons.inj hbad).1

def writeHeader (path : List String) : List Char :=
  '[' :: ['.'].intercalate (path.map writeKey) ++ [']', '\n']

theorem intercalate_cons (path : List String) (ne : path ≠ []) :
    ∃ c r, ['.'].intercalate (path.map writeKey) = c :: r ∧ beginsKey c = true := by
  cases path with
  | nil => exact absurd rfl ne
  | cons s path =>
    obtain ⟨c, r, hwrite, hbegins⟩ := writeKey_cons s
    cases path with
    | nil => exact ⟨c, r, by simpa [List.intercalate] using hwrite, hbegins⟩
    | cons t path => exact ⟨c, _, by simp [List.intercalate, hwrite]; rfl, hbegins⟩

theorem readLine_header (header : List String) (root : Members) {path : List String}
    (ne : path ≠ []) (short : path.length ≤ 79) (rest : List Char) :
    readLine header root (writeHeader path ++ rest) =
      (openTable path.dropLast (path.getLast ne) root).map fun root' => (path, root', rest) := by
  have hline : writeHeader path ++ rest =
      '[' :: (['.'].intercalate (path.map writeKey) ++ ']' :: '\n' :: rest) := by
    simp [writeHeader]
  have hbracket : ∀ r, skipGap (']' :: r) = ']' :: r := skipGap_cons rfl
  have hkey : readKey depthLimit.pred
      (['.'].intercalate (path.map writeKey) ++ ']' :: '\n' :: rest) =
      some (path, ']' :: '\n' :: rest) :=
    readKey_path path depthLimit.pred ne short rfl (by nofun)
  obtain ⟨c, r, hpath, hbegins⟩ := intercalate_cons path ne
  rw [hline, readLine]
  · rw [hkey]
    simp only [Option.bind_eq_bind, Option.bind_some, List.getLast?_eq_some_getLast ne,
      endLine_lineFeed]
    cases openTable path.dropLast (path.getLast ne) root <;> rfl
  · intro r' hbad
    rw [hpath] at hbad
    exact (beginsKey_ne hbegins).2.1 (List.cons.inj hbad).1

/-! ### Texts from some line on -/

/-- From a line on, with the table so far and the last header, the text leads to the table `ms`. -/
def Reads (header : List String) (root : Members) (cs : List Char) (ms : Members) : Prop :=
  ∀ n, cs.length < n → readLines n header root cs = some ms

variable {header header' : List String} {root root' ms : Members} {cs rest : List Char}

theorem reads_nil (header : List String) (ms : Members) : Reads header ms [] ms := by
  intro n hn
  obtain ⟨n, rfl⟩ : ∃ k, n = k + 1 := ⟨n - 1, by omega⟩
  rfl

theorem Reads.blank (h : Reads header root cs ms) : Reads header root ('\n' :: cs) ms := by
  intro n hn
  obtain ⟨n, rfl⟩ : ∃ k, n = k + 1 := ⟨n - 1, by omega⟩
  have hsame : readLines (n + 1) header root ('\n' :: cs) = readLines (n + 1) header root cs := by
    rw [readLines, readLines, skipLines]
  rw [hsame]
  apply h
  simp only [List.length_cons] at hn
  omega

theorem skipLines_cons {c : Char} (h : beginsKey c = true ∨ c = '[') (r : List Char) :
    skipLines false (c :: r) = some (c :: r) := by
  have hne : isGap c = false ∧ c ≠ '\n' ∧ c ≠ '\r' ∧ c ≠ '#' := by
    obtain hbegins | rfl := h
    · obtain ⟨hgap, -, hrest⟩ := beginsKey_ne hbegins
      exact ⟨hgap, hrest⟩
    · decide
  obtain ⟨hgap, hfeed, hreturn, hcomment⟩ := hne
  rw [skipLines]
  · rw [if_neg (by rw [hgap]; decide), if_neg hcomment]
  · exact hfeed
  · intro _ hbad
    exact absurd hbad hreturn

theorem Reads.line {c : Char} {r : List Char} (begins : beginsKey c = true ∨ c = '[')
    (hread : readLine header root (c :: r) = some (header', root', rest))
    (shorter : rest.length < (c :: r).length) (h : Reads header' root' rest ms) :
    Reads header root (c :: r) ms := by
  intro n hn
  obtain ⟨n, rfl⟩ : ∃ k, n = k + 1 := ⟨n - 1, by omega⟩
  rw [readLines, skipLines_cons begins]
  simp only [Option.bind_eq_bind, Option.bind_some, hread]
  apply h
  omega

theorem Reads.definition {m : String × String}
    (defines : defineUnder header [m.1] (.text m.2) root = some root')
    (h : Reads header root' rest ms) : Reads header root (writeDefinition m ++ rest) ms := by
  have hread := readLine_definition header root m rest
  obtain ⟨c, r, hwrite, hbegins⟩ := writeKey_cons m.1
  have hcons : writeDefinition m ++ rest =
      c :: (r ++ [' ', '=', ' '] ++ writeText m.2 ++ ['\n'] ++ rest) := by
    simp [writeDefinition, hwrite]
  rw [defines] at hread
  rw [hcons] at hread ⊢
  apply Reads.line (.inl hbegins) hread _ h
  simp only [List.length_cons, List.length_append]
  omega

theorem Reads.opened (path : List String) (ne : path ≠ []) (short : path.length ≤ 79)
    (opens : openTable path.dropLast (path.getLast ne) root = some root')
    (h : Reads path root' rest ms) : Reads header root (writeHeader path ++ rest) ms := by
  have hread := readLine_header header root ne short rest
  have hcons : writeHeader path ++ rest =
      '[' :: (['.'].intercalate (path.map writeKey) ++ [']', '\n'] ++ rest) := by
    simp [writeHeader]
  rw [opens] at hread
  rw [hcons] at hread ⊢
  apply Reads.line (.inr rfl) hread _ h
  simp only [List.length_cons, List.length_append]
  omega

theorem writeSection_eq (t : Section) :
    writeSection t = writeHeader t.path ++ t.texts.flatMap writeDefinition := rfl

/-! ### Tables under one key -/

theorem setMember_of_lookup {key : String} {item : Item} (h : ms.lookup key = none) :
    setMember key item ms = ms ++ [(key, item)] := by
  induction ms with
  | nil => rfl
  | cons m ms ih =>
    rw [Dict.lookup_cons_eq] at h
    split at h
    · cases h
    · rename_i hne
      rw [setMember, if_neg (Ne.symm hne), ih h, List.cons_append]

theorem setMember_concat {key : String} {item item' : Item} (h : ms.lookup key = none) :
    setMember key item (ms ++ [(key, item')]) = ms ++ [(key, item)] := by
  induction ms with
  | nil => simp [setMember]
  | cons m ms ih =>
    rw [Dict.lookup_cons_eq] at h
    split at h
    · cases h
    · rename_i hne
      rw [List.cons_append, setMember, if_neg (Ne.symm hne), ih h, List.cons_append]

theorem lookup_concat {key : String} {item : Item} (h : ms.lookup key = none) :
    (ms ++ [(key, item)]).lookup key = some item := by
  rw [List.lookup_append, h, Dict.lookup_cons_eq, if_pos rfl]
  rfl

theorem lookup_map_none {α : Type} {entries : List (String × α)} (f : α → Item) {name : String}
    (h : name ∉ entries.map (·.1)) : (entries.map fun e => (e.1, f e.2)).lookup name = none := by
  induction entries with
  | nil => rfl
  | cons e entries ih =>
    rw [List.map_cons, List.mem_cons, not_or] at h
    rw [List.map_cons, Dict.lookup_cons_eq, if_neg h.1, ih h.2]

def textMembers (texts : List (String × String)) : Members := texts.map fun m => (m.1, .text m.2)

/-- A table of strings that a header has opened. -/
def textTable (texts : List (String × String)) : Item := .table .header (textMembers texts)

/-- Tables of strings by their names. -/
abbrev TextTables : Type := List (String × List (String × String))

/-- The table of a configuration that has all its tables under one key. -/
def grouped (group : String) (tables : TextTables) : Members :=
  if tables.isEmpty then []
  else [(group, .table .implied (tables.map fun e => (e.1, textTable e.2)))]

/-- No name is used twice, and no table has a key twice. -/
structure Distinct (tables : TextTables) : Prop where
  names : (tables.map (·.1)).Nodup
  keys : ∀ e ∈ tables, (e.2.map (·.1)).Nodup

theorem Distinct.tail {e : String × List (String × String)} {tables : TextTables}
    (h : Distinct (e :: tables)) : Distinct tables :=
  ⟨(List.nodup_cons.1 h.names).2, fun e' mem => h.keys e' (List.mem_cons_of_mem _ mem)⟩

variable {group name key text : String} {tables : TextTables} {texts : List (String × String)}

theorem grouped_concat (group : String) (tables : TextTables)
    (e : String × List (String × String)) :
    grouped group (tables ++ [e]) =
      [(group, .table .implied
        ((tables.map fun e => (e.1, textTable e.2)) ++ [(e.1, textTable e.2)]))] := by
  rw [grouped, if_neg (by simp), List.map_append]
  rfl

theorem openTable_grouped (h : name ∉ tables.map (·.1)) :
    openTable [group] name (grouped group tables) =
      some (grouped group (tables ++ [(name, [])])) := by
  rw [grouped_concat]
  cases tables with
  | nil =>
    show changeAt false _ [group] .header [] = _
    rfl
  | cons e tables =>
    have hnone := lookup_map_none textTable h
    rw [openTable, grouped, if_neg (by simp), changeAt, Dict.lookup_cons_eq, if_pos rfl]
    dsimp only
    rw [if_neg (by simp), changeAt, hnone]
    dsimp only
    rw [setMember_of_lookup hnone]
    simp [setMember, textTable, textMembers]

theorem defineUnder_grouped (h : name ∉ tables.map (·.1)) (hkey : key ∉ texts.map (·.1)) :
    defineUnder [group, name] [key] (.text text) (grouped group (tables ++ [(name, texts)])) =
      some (grouped group (tables ++ [(name, texts ++ [(key, text)])])) := by
  have hnone := lookup_map_none textTable h
  have hadded : define [] key (.text text) .header (textMembers texts) =
      some (textMembers (texts ++ [(key, text)])) := by
    have hfree : (textMembers texts).lookup key = none := lookup_map_none .text hkey
    rw [define, changeAt, addKey, if_neg (by simp), hfree]
    show some (setMember key (.text text) (textMembers texts)) = _
    rw [setMember_of_lookup hfree, textMembers, textMembers, List.map_append]
    rfl
  rw [grouped_concat, grouped_concat]
  show changeAt false (define [] key (.text text)) [group, name] .header _ = _
  rw [changeAt, Dict.lookup_cons_eq, if_pos rfl]
  dsimp only
  rw [if_neg (by simp), changeAt, lookup_concat hnone, textTable]
  dsimp only
  rw [if_neg (by simp), changeAt, hadded]
  show some (setMember group (.table .implied (setMember name
    (textTable (texts ++ [(key, text)])) _)) _) = _
  rw [← textTable, setMember_concat hnone]
  simp [setMember]

/-- The lines under the header of the last table, which has some keys already. -/
theorem Reads.definitions (h : name ∉ tables.map (·.1)) (done : List (String × String))
    (distinct : ((done ++ texts).map (·.1)).Nodup)
    (next : Reads [group, name] (grouped group (tables ++ [(name, done ++ texts)])) rest ms) :
    Reads [group, name] (grouped group (tables ++ [(name, done)]))
      (texts.flatMap writeDefinition ++ rest) ms := by
  induction texts generalizing done with
  | nil => simpa using next
  | cons m texts ih =>
    have hsplit : done ++ m :: texts = (done ++ [m]) ++ texts := by simp
    have hkey : m.1 ∉ done.map (·.1) := by
      intro hmem
      rw [List.map_append, List.map_cons] at distinct
      exact (List.nodup_append.1 distinct).2.2 _ hmem _ (List.mem_cons_self ..) rfl
    rw [hsplit] at distinct next
    -- the key is new in its table, so the line may define it
    rw [List.flatMap_cons, List.append_assoc]
    exact Reads.definition (defineUnder_grouped h hkey) (ih (done ++ [m]) distinct next)

theorem Reads.table (header : List String) (h : name ∉ tables.map (·.1))
    (distinct : (texts.map (·.1)).Nodup)
    (next : Reads [group, name] (grouped group (tables ++ [(name, texts)])) rest ms) :
    Reads header (grouped group tables) (writeSection ⟨[group, name], texts⟩ ++ rest) ms := by
  rw [writeSection_eq, List.append_assoc]
  apply Reads.opened [group, name] (by nofun) (by simp) (openTable_grouped h)
  exact Reads.definitions h [] distinct next

/-- Sections one after the other, with blank lines between them, after some tables. -/
theorem reads_tables (group : String) (header : List String) (done tables : TextTables)
    (distinct : Distinct (done ++ tables)) :
    Reads header (grouped group done)
      (['\n'].intercalate (tables.map fun e => writeSection ⟨[group, e.1], e.2⟩))
      (grouped group (done ++ tables)) := by
  induction tables generalizing header done with
  | nil =>
    rw [List.append_nil]
    exact reads_nil header _
  | cons e tables ih =>
    obtain ⟨name, texts⟩ := e
    have hsplit : done ++ (name, texts) :: tables = (done ++ [(name, texts)]) ++ tables := by simp
    have hname : name ∉ done.map (·.1) := by
      intro hmem
      have hnames := distinct.names
      rw [List.map_append, List.map_cons] at hnames
      exact (List.nodup_append.1 hnames).2.2 _ hmem _ (List.mem_cons_self ..) rfl
    have hkeys : (texts.map (·.1)).Nodup := distinct.keys (name, texts) (by simp)
    rw [hsplit] at distinct ⊢
    have hrest := ih [group, name] (done ++ [(name, texts)]) distinct
    cases tables with
    | nil =>
      have hlast := Reads.table header hname hkeys (reads_nil [group, name] _)
      simpa [List.intercalate] using hlast
    | cons e' tables =>
      have hmore := Reads.table header hname hkeys hrest.blank
      simpa [List.intercalate] using hmore

/-- Tables of strings under one key, none of them named twice, are read back from what is written
for them. -/
theorem read_write_tables (group : String) {tables : TextTables} (distinct : Distinct tables) :
    read (write (tables.map fun e => ⟨[group, e.1], e.2⟩)) = some (grouped group tables) := by
  have hreads := reads_tables group [] [] tables distinct
  rw [List.nil_append] at hreads
  have hmark : ∀ r, ['\n'].intercalate (tables.map fun e => writeSection ⟨[group, e.1], e.2⟩) ≠
      '\ufeff' :: r := by
    intro r
    cases tables with
    | nil => nofun
    | cons e tables => cases tables <;> simp [List.intercalate, writeSection]
  rw [read, write, String.toList_ofList, List.map_map]
  show readLines _ [] [] _ = _
  split
  · rename_i r hbad
    exact absurd hbad (hmark r)
  · exact hreads _ (Nat.lt_succ_self _)

end ChangeDesk.Toml
