import AccessorGen.Proofs.Toml.Strings
import AccessorGen.Toml.Document

/-!
# Documents line by line

- A key has a text as it stands and texts in quotes (`IsKeyText`), all read alike;
- a line holds a statement (`IsLine`) if it is read as that, whatever follows it. Entries with a key and a string,
  headers of tables, comments and empty lines are such lines (`isLine_entry`, `isLine_table`, `isLine_comment`,
  `isLine_nil`);
- a text of such lines is read as their statements (`statements_lines`), so no later proof counts the steps of
  `statementsWithin`;
- entries with new keys go to the end of the table that the last header opened (`foldlM_add_entries`), which is the
  document itself before any header (`foldlM_add_root`, `foldlM_add_table`).
-/

namespace AccessorGen.Toml

/-! ## Keys and values -/

section Parts

/-- A key that needs no quotes. -/
def IsBareKey (k : Key) : Prop :=
  k ≠ [] ∧ k.all isBareKeyChar

instance (k : Key) : Decidable (IsBareKey k) :=
  inferInstanceAs (Decidable (_ ∧ _))

/-- The characters that keys start with, bare or in quotes. -/
def isKeyStart (c : Char) : Bool :=
  isBareKeyChar c || c == '"' || c == '\''

/-- The text is read as the key, unless a further character of a bare key follows it. -/
structure IsKeyText (text : List Char) (k : Key) : Prop where
  start : ∃ c t, text = c :: t ∧ isKeyStart c
  read : ∀ rest, (∀ c ∈ rest.head?, ¬ isBareKeyChar c) → simpleKey (text ++ rest) = some (k, rest)

variable {k : Key} {text rest : List Char}

theorem ne_of_isKeyStart {c d : Char} (hc : isKeyStart c) (hd : isKeyStart d = false) : c ≠ d := by
  rintro rfl
  rw [hc] at hd
  cases hd

/-- A text that starts with a key has a first character, which is of the key. -/
theorem IsKeyText.exists_append_eq (hk : IsKeyText text k) (rest : List Char) :
    ∃ c t, text ++ rest = c :: t ∧ isKeyStart c := by
  obtain ⟨c, t, rfl, hc⟩ := hk.start
  exact ⟨c, t ++ rest, rfl, hc⟩

theorem IsKeyText.skipSpace_append (hk : IsKeyText text k) : skipSpace (text ++ rest) = text ++ rest := by
  obtain ⟨c, t, hct, hc⟩ := hk.exists_append_eq rest
  have hspace : ¬ isSpace c := by
    simp [isSpace, ne_of_isKeyStart hc (d := ' ') (by decide), ne_of_isKeyStart hc (d := '\t') (by decide)]
  rw [hct, skipSpace, List.dropWhile_cons_of_neg hspace]

/-- A bare key is its own text. -/
theorem IsBareKey.isKeyText (hk : IsBareKey k) : IsKeyText k k := by
  obtain ⟨hne, hall⟩ := hk
  have hbare := List.all_eq_true.mp hall
  obtain ⟨c, t, rfl⟩ := List.exists_cons_of_ne_nil hne
  have hc := hbare c List.mem_cons_self
  refine ⟨⟨c, t, rfl, by simp [isKeyStart, hc]⟩, ?_⟩
  intro rest hrest
  have hstop : rest.takeWhile isBareKeyChar = [] ∧ rest.dropWhile isBareKeyChar = rest := by
    cases rest with
    | nil => exact ⟨rfl, rfl⟩
    | cons d rest =>
      have hd := hrest d rfl
      exact ⟨List.takeWhile_cons_of_neg hd, List.dropWhile_cons_of_neg hd⟩
  have htake : (c :: t ++ rest).takeWhile isBareKeyChar = c :: t := by
    rw [List.takeWhile_append_of_pos hbare, hstop.1, List.append_nil]
  have hdrop : (c :: t ++ rest).dropWhile isBareKeyChar = rest := by
    rw [List.dropWhile_append_of_pos hbare, hstop.2]
  unfold simpleKey
  split
  · rename_i h
    rw [(List.cons.inj h).1] at hc
    exact absurd hc (by decide)
  · rename_i h
    rw [(List.cons.inj h).1] at hc
    exact absurd hc (by decide)
  · rw [htake, hdrop]

/-- Any key can be written in `"`. -/
theorem isKeyText_basicLine (k : Key) : IsKeyText (StringForm.basicLine.write k) k := by
  refine ⟨⟨'"', _, rfl, rfl⟩, ?_⟩
  intro rest _
  have hread := basicString_escapeLine rest k
  simpa [StringForm.write, simpleKey, quotedLine] using hread

/-- A key that fits can be written in `'`. -/
theorem isKeyText_literalLine (h : StringForm.literalLine.Fits k) : IsKeyText (StringForm.literalLine.write k) k := by
  refine ⟨⟨'\'', _, rfl, rfl⟩, ?_⟩
  intro rest _
  have hread := literalString_append rest k h
  simpa [StringForm.write, simpleKey, quotedLine] using hread

/-- A key is read up to a character that neither belongs to it nor makes it a dotted one. -/
theorem key_append {c : Char} {t : List Char} (hk : IsKeyText text k) (hrest : ∀ d ∈ rest.head?, ¬ isBareKeyChar d)
    (hskip : skipSpace rest = c :: t) (hdot : c ≠ '.') : key (text ++ rest) = some (([], k), c :: t) := by
  unfold key depthLimit
  rw [show 80 - 1 = 78 + 1 from rfl, keyOfParts, hk.skipSpace_append, hk.read rest hrest]
  simp only [Option.bind_eq_bind, Option.bind_some, hskip]
  split
  · rename_i h
    exact absurd (List.cons.inj h).1 hdot
  · rfl

/-- A value in quotes is a string. -/
theorem entryValue_quoted {text s : List Char} (hq : text.head? = some '"' ∨ text.head? = some '\'')
    (h : quoted text = some (s, rest)) : entryValue text = some (.string s, rest) := by
  have hscalar : scalar text = some (.string s, rest) := by
    unfold scalar
    split
    · rw [h]; rfl
    · rw [h]; rfl
    · simp at hq
    · simp at hq
    · rename_i hb hl _ _
      cases text with
      | nil => simp at hq
      | cons c text =>
        rcases hq with hq | hq
        · obtain rfl : c = '"' := by simpa using hq
          exact absurd rfl (hb text)
        · obtain rfl : c = '\'' := by simpa using hq
          exact absurd rfl (hl text)
  unfold entryValue depthLimit
  rw [show 80 - 1 = 78 + 1 from rfl, valueOfDepth]
  · exact hscalar
  · rintro t rfl
    simp at hq
  · rintro t rfl
    simp at hq

end Parts

/-! ## Lines -/

section Lines

/-- The line holds the statement: it is read as that when a line feed ends it. -/
def IsLine (line : List Char) (st : Statement) : Prop :=
  ∀ rest, ∃ t, statement (line ++ '\n' :: rest) = some (st, t) ∧ endLine t = some rest

theorem endLine_newline (rest : List Char) : endLine ('\n' :: rest) = some rest :=
  rfl

theorem isLine_nil : IsLine [] .blank :=
  fun rest => ⟨'\n' :: rest, rfl, endLine_newline rest⟩

theorem isLine_comment {text : List Char} (h : ∀ c ∈ text, isPlain c) : IsLine ('#' :: text) .blank := by
  intro rest
  refine ⟨'#' :: (text ++ '\n' :: rest), rfl, ?_⟩
  have hskip : skipComment (skipSpace ('#' :: (text ++ '\n' :: rest))) = '\n' :: rest := by
    show (text ++ '\n' :: rest).dropWhile isPlain = '\n' :: rest
    rw [List.dropWhile_append_of_pos h]
    rfl
  rw [endLine, hskip]
  rfl

variable {k : Key} {text v s rest : List Char}

theorem entry_quoted (hk : IsKeyText text k) (hq : v.head? = some '"' ∨ v.head? = some '\'')
    (h : quoted v = some (s, rest)) :
    entry entryValue (text ++ " = ".toList ++ v) = some ((([], k), .string s), rest) := by
  have hspace : skipSpace (' ' :: v) = v := by
    cases v with
    | nil => rfl
    | cons c v =>
      rcases hq with hq | hq
      · obtain rfl : c = '"' := by simpa using hq
        rfl
      · obtain rfl : c = '\'' := by simpa using hq
        rfl
  have hkey : key (text ++ ' ' :: '=' :: ' ' :: v) = some (([], k), '=' :: ' ' :: v) :=
    key_append hk (by simp [isBareKeyChar]) rfl (by decide)
  rw [List.append_assoc]
  simp only [String.reduceToList, List.cons_append, List.nil_append]
  simp [entry, hkey, expect, hspace, entryValue_quoted hq h]

/-- A text that starts with a key starts with an entry. -/
theorem statement_of_isKeyText (hk : IsKeyText text k) :
    statement (text ++ rest) =
      (entry entryValue (text ++ rest)).map fun (((path, k), v), s) => (.entry path k v, s) := by
  obtain ⟨c, t, hct, hc⟩ := hk.exists_append_eq rest
  have hne : ∀ d, isKeyStart d = false → c ≠ d := fun d => ne_of_isKeyStart hc
  unfold statement
  rw [hk.skipSpace_append, hct]
  split
  · rename_i h
    cases h
  · rename_i h
    exact absurd (List.cons.inj h).1 (hne _ (by decide))
  · rename_i h
    exact absurd (List.cons.inj h).1 (hne _ (by decide))
  · rename_i h
    obtain ⟨rfl, rfl⟩ := List.cons.inj h
    have hblank : ¬ (c = '#' ∨ c = '\n' ∨ c = '\r') := by
      rintro (h | h | h)
      · exact hne _ (by decide) h
      · exact hne _ (by decide) h
      · exact hne _ (by decide) h
    rw [if_neg hblank]
    cases entry entryValue (c :: t) with
    | none => rfl
    | some r => rfl

/-- A key, an equals sign and a string are an entry. -/
theorem statement_entry (hk : IsKeyText text k) (hq : v.head? = some '"' ∨ v.head? = some '\'')
    (h : quoted v = some (s, rest)) :
    statement (text ++ " = ".toList ++ v) = some (.entry [] k (.string s), rest) := by
  have hentry := entry_quoted hk hq h
  rw [List.append_assoc] at hentry ⊢
  rw [statement_of_isKeyText hk, hentry]
  rfl

/-- A key in brackets is the header of a table. -/
theorem statement_table (hk : IsKeyText text k) (rest : List Char) :
    statement ('[' :: (text ++ ']' :: rest)) = some (.table [] k, rest) := by
  have hkey : key (text ++ ']' :: rest) = some (([], k), ']' :: rest) :=
    key_append hk (by simp [isBareKeyChar]) rfl (by decide)
  obtain ⟨c, t, hct, hc⟩ := hk.exists_append_eq (']' :: rest)
  have hstart : skipSpace ('[' :: (text ++ ']' :: rest)) = '[' :: (text ++ ']' :: rest) := rfl
  unfold statement
  rw [hstart]
  split
  · rename_i h
    cases h
  · -- a key does not start with a bracket
    rename_i h
    rw [hct, List.cons.injEq] at h
    exact absurd (List.cons.inj h.2).1 (ne_of_isKeyStart hc (by decide))
  · rename_i h
    rw [← (List.cons.inj h).2, hkey]
    rfl
  · rename_i hbracket h
    exact absurd (List.cons.inj h).1.symm hbracket

/-- An entry with a string. -/
theorem isLine_entry (hk : IsKeyText text k) {form : StringForm} (hform : form.Fits s) :
    IsLine (text ++ " = ".toList ++ form.write s) (.entry [] k (.string s)) := by
  intro rest
  have hread : quoted (form.write s ++ '\n' :: rest) = some (s, '\n' :: rest) :=
    quoted_write hform (by simp) (by simp)
  have hq : (form.write s ++ '\n' :: rest).head? = some '"' ∨ (form.write s ++ '\n' :: rest).head? = some '\'' := by
    rw [List.head?_append]
    exact (head?_write s form).imp (fun h => by rw [h]; rfl) (fun h => by rw [h]; rfl)
  refine ⟨'\n' :: rest, ?_, endLine_newline rest⟩
  rw [List.append_assoc]
  exact statement_entry hk hq hread

theorem isLine_quote (hk : IsBareKey k) (s : List Char) :
    IsLine (k ++ " = ".toList ++ quote s) (.entry [] k (.string s)) :=
  isLine_entry hk.isKeyText (fits_of s)

/-- The header of a table with a bare key. -/
theorem isLine_table (hk : IsBareKey k) : IsLine ('[' :: k ++ [']']) (.table [] k) := by
  intro rest
  refine ⟨'\n' :: rest, ?_, endLine_newline rest⟩
  rw [List.cons_append, List.cons_append, List.append_assoc, List.singleton_append]
  exact statement_table hk.isKeyText ('\n' :: rest)

/-! ### Lines in a row -/

theorem statementsWithin_mono : ∀ {m n : Nat} {s : List Char} {sts : List Statement}, m ≤ n →
    statementsWithin m s = some sts → statementsWithin n s = some sts
  | _, _, [], _, _, h => by
    rw [statementsWithin] at h ⊢
    exact h
  | 0, _, c :: s, _, _, h => by
    rw [statementsWithin] at h
    · cases h
    · exact nofun
  | m + 1, n + 1, c :: s, sts, hle, h => by
    rw [statementsWithin] at h ⊢
    · simp only [Option.bind_eq_bind, Option.bind_eq_some_iff] at h ⊢
      obtain ⟨⟨st, t⟩, hst, rest, hend, later, hlater, h⟩ := h
      exact ⟨(st, t), hst, rest, hend, later, statementsWithin_mono (Nat.le_of_succ_le_succ hle) hlater, h⟩
    · exact nofun
    · exact nofun

/-- A line in front of a text is read before it. -/
theorem statements_line {line rest : List Char} {st : Statement} {sts : List Statement} (hline : IsLine line st)
    (h : statements rest = some sts) : statements (line ++ '\n' :: rest) = some (st :: sts) := by
  obtain ⟨t, hst, hend⟩ := hline rest
  have hlen : (line ++ '\n' :: rest).length = line.length + rest.length + 1 := by
    simp only [List.length_append, List.length_cons]
    omega
  have hlater : statementsWithin (line.length + rest.length) rest = some sts :=
    statementsWithin_mono (Nat.le_add_left _ _) h
  unfold statements
  rw [hlen, statementsWithin]
  · simp [hst, hend, hlater]
  · simp

theorem statements_lines {rest : List Char} {sts : List Statement} (hrest : statements rest = some sts) :
    ∀ lines : List (List Char × Statement), (∀ l ∈ lines, IsLine l.1 l.2) →
      statements (lines.flatMap (fun l => l.1 ++ ['\n']) ++ rest) = some (lines.map (·.2) ++ sts)
  | [], _ => hrest
  | (line, st) :: lines, h => by
    obtain ⟨hline, hlines⟩ := List.forall_mem_cons.mp h
    have ih := statements_lines hrest lines hlines
    rw [List.flatMap_cons, List.append_assoc, List.append_assoc, List.singleton_append]
    exact statements_line hline ih

end Lines

/-! ## Tables -/

section Tables

theorem lookup_eq_none_of_not_mem {β : Type} {k : Key} {entries : List (Key × β)} (h : k ∉ entries.map (·.1)) :
    entries.lookup k = none := by
  rw [List.lookup_eq_none_iff]
  intro e he
  simp only [bne_iff_ne, ne_eq]
  rintro rfl
  exact h (List.mem_map_of_mem he)

theorem insertNew_of_not_mem {k : Key} {entries : Entries} (h : k ∉ entries.map (·.1)) (v : Value)
    (origin : TableOrigin) : Entries.insertNew false k v origin entries = some (entries ++ [(k, v)]) := by
  simp [Entries.insertNew, lookup_eq_none_of_not_mem h]

theorem put_append {k : Key} {entries : Entries} (h : k ∉ entries.map (·.1)) (v w : Value) :
    Entries.put k w (entries ++ [(k, v)]) = entries ++ [(k, w)] := by
  induction entries with
  | nil => simp [Entries.put]
  | cons e entries ih =>
    obtain ⟨hne, hrest⟩ : k ≠ e.1 ∧ k ∉ entries.map (·.1) := by simpa using h
    rw [List.cons_append, Entries.put, if_neg (Ne.symm hne), ih hrest, List.cons_append]

theorem put_of_not_mem {k : Key} {entries : Entries} (h : k ∉ entries.map (·.1)) (v : Value) :
    Entries.put k v entries = entries ++ [(k, v)] := by
  induction entries with
  | nil => rfl
  | cons e entries ih =>
    obtain ⟨hne, hrest⟩ : k ≠ e.1 ∧ k ∉ entries.map (·.1) := by simpa using h
    rw [Entries.put, if_neg (Ne.symm hne), ih hrest, List.cons_append]

/-- Before any header, an entry goes to the document. -/
theorem add_entry_root (k : Key) (v : Value) (root : Entries) :
    Document.add ⟨root, []⟩ (.entry [] k v) = (Entries.insertNew false k v .header root).map (⟨·, []⟩) := by
  simp only [Document.add, Entries.modifyUnder, Entries.modifyAt, Entries.insertDotted, List.isEmpty_nil, Bool.not_true]
  cases Entries.insertNew false k v .header root with
  | none => rfl
  | some entries => rfl

/-- After the header of a new table, an entry goes to that. -/
theorem add_entry_table {table : Key} {root : Entries} (h : table ∉ root.map (·.1)) (k : Key) (v : Value)
    (inner : Entries) :
    Document.add ⟨root ++ [(table, .table .header inner)], [table]⟩ (.entry [] k v) =
      (Entries.insertNew false k v .header inner).map
        fun inner => ⟨root ++ [(table, .table .header inner)], [table]⟩ := by
  have hlookup : (root ++ [(table, Value.table .header inner)]).lookup table = some (.table .header inner) := by
    rw [List.lookup_append, lookup_eq_none_of_not_mem h]
    simp
  simp only [Document.add, Entries.modifyUnder, Entries.modifyAt, hlookup, Entries.insertDotted, List.isEmpty_nil,
    Bool.not_true]
  cases Entries.insertNew false k v .header inner with
  | none => rfl
  | some entries => simp [put_append h]

/-- The header of a new table. -/
theorem add_table {table : Key} {root : Entries} (h : table ∉ root.map (·.1)) (current : List Key) :
    Document.add ⟨root, current⟩ (.table [] table) = some ⟨root ++ [(table, .table .header [])], [table]⟩ := by
  simp [Document.add, Entries.openTable, Entries.modifyUnder, Entries.modifyAt, lookup_eq_none_of_not_mem h,
    put_of_not_mem h]

/-- **Entries with new keys go to the end of the table** whose entries are a part of the document `d`. -/
theorem foldlM_add_entries {d : Entries → Document}
    (hd : ∀ k v inner, (d inner).add (.entry [] k v) = (Entries.insertNew false k v .header inner).map d) :
    ∀ entries inner : Entries, ((inner ++ entries).map (·.1)).Nodup →
      (entries.map fun e => Statement.entry [] e.1 e.2).foldlM Document.add (d inner) = some (d (inner ++ entries))
  | [], inner, _ => by simp
  | (k, v) :: entries, inner, hnodup => by
    have hk : k ∉ inner.map (·.1) := by
      rw [List.map_append, List.nodup_append] at hnodup
      exact fun hmem => hnodup.2.2 k hmem k List.mem_cons_self rfl
    rw [List.append_cons] at hnodup
    have ih := foldlM_add_entries hd entries (inner ++ [(k, v)]) hnodup
    rw [List.map_cons, List.foldlM_cons, hd, insertNew_of_not_mem hk]
    simpa using ih

/-- The entries before any header. -/
theorem foldlM_add_root {root : Entries} (h : (root.map (·.1)).Nodup) :
    (root.map fun e => Statement.entry [] e.1 e.2).foldlM Document.add ⟨[], []⟩ = some ⟨root, []⟩ :=
  foldlM_add_entries add_entry_root root [] h

/-- The header of a new table, and the entries after it. -/
theorem foldlM_add_table {table : Key} {root inner : Entries} (hnew : table ∉ root.map (·.1))
    (hinner : (inner.map (·.1)).Nodup) :
    (.table [] table :: inner.map fun e => Statement.entry [] e.1 e.2).foldlM Document.add ⟨root, []⟩ =
      some ⟨root ++ [(table, .table .header inner)], [table]⟩ := by
  rw [List.foldlM_cons, add_table hnew]
  exact foldlM_add_entries (add_entry_table hnew) inner [] hinner

end Tables

end AccessorGen.Toml
