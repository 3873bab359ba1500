import Mathlib.Data.Nat.Find
import TableQuery.Proofs.Table.RoundTrip

/-!
# Blocks of lines

Reading a table to its end cuts its lines into blocks, one for the header if there is one and
one for each record, and no line is lost, read twice or moved.  Where quoted fields may hold
line breaks a block goes up to the first line with which its quotes are even in number, or to
the end of the input if there is no such line.  The invariant of the reader is that it has
read whole blocks: it knows how many lines there are in them and at which line the first of
them began that was malformed.
-/

namespace TableQuery

/-! ## Lines -/

/-- The lines of a text: each is ended by a line feed, or by a carriage return and a line feed,
except that the last one may be ended by the end of the text. -/
inductive Text.IsLines : List Char → List (List Char) → Prop
  | nil : IsLines [] []
  | unended {line : List Char} : line ≠ [] → '\n' ∉ line → IsLines line [line]
  | feed {line rest : List Char} {lines : List (List Char)} : '\n' ∉ line →
      line.getLast? ≠ some '\r' → IsLines rest lines →
      IsLines (line ++ '\n' :: rest) (line :: lines)
  | returnFeed {line rest : List Char} {lines : List (List Char)} : '\n' ∉ line →
      IsLines rest lines → IsLines (line ++ '\r' :: '\n' :: rest) (line :: lines)

theorem Text.isLines_lines (s : List Char) : IsLines s (lines s) := by
  generalize hlength : s.length = n
  induction n using Nat.strongRecOn generalizing s with
  | _ n ih =>
    by_cases hmem : '\n' ∈ s
    · obtain ⟨line, rest, rfl, hline⟩ := List.eq_append_cons_of_mem hmem
      have hrest : IsLines rest (lines rest) := by
        refine ih rest.length ?_ rest rfl
        rw [← hlength, List.length_append, List.length_cons]
        omega
      rw [lines_append_cons hline, lineBefore]
      split
      · next hlast =>
        obtain ⟨before, rfl⟩ := List.getLast?_eq_some_iff.mp hlast
        have hbefore : '\n' ∉ before := fun h => hline (List.mem_append_left _ h)
        rw [List.dropLast_concat, List.append_assoc]
        exact .returnFeed hbefore hrest
      · next hlast => exact .feed hline hlast hrest
    · cases s with
      | nil => exact .nil
      | cons c s =>
        rw [lines_of_not_mem hmem (List.cons_ne_nil c s)]
        exact .unended (List.cons_ne_nil c s) hmem

/-- These are the lines of a text. -/
theorem Text.isLines_iff {s : List Char} {parts : List (List Char)} :
    IsLines s parts ↔ parts = lines s := by
  refine ⟨fun h => ?_, fun h => h ▸ isLines_lines s⟩
  induction h with
  | nil => rfl
  | unended hne hline => rw [lines_of_not_mem hline hne]
  | feed hline hlast _ ih => rw [lines_append_cons hline, lineBefore, if_neg hlast, ih]
  | @returnFeed line rest parts hline _ ih =>
    have hreturn : '\n' ∉ line ++ ['\r'] := by simp [hline]
    rw [List.append_cons, lines_append_cons hreturn, lineBefore_concat_return, ih]

namespace DelimitedReader

/-! ## Byte order marks -/

/-- Lines as they stand in a table, and the same lines without the byte order mark at the start
of the first one, if there is one.  Only one mark is taken away, and only from this line. -/
inductive IsUnmarked : List (List Char) → List (List Char) → Prop
  | nil : IsUnmarked [] []
  | marked {line : List Char} {lines : List (List Char)} :
      IsUnmarked (('\ufeff' :: line) :: lines) (line :: lines)
  | plain {line : List Char} {lines : List (List Char)} : line.head? ≠ some '\ufeff' →
      IsUnmarked (line :: lines) (line :: lines)

/-- The lines that a reader goes over: it looks for a mark before it has counted a line. -/
def dropFirstMark : List (List Char) → List (List Char)
  | [] => []
  | line :: lines => dropMark line :: lines

theorem isUnmarked_iff {raw lines : List (List Char)} :
    IsUnmarked raw lines ↔ dropFirstMark raw = lines := by
  constructor
  · rintro (_ | _ | hplain)
    · rfl
    · rfl
    · rw [dropFirstMark, dropMark_of_head?_ne hplain]
  · rintro rfl
    cases raw with
    | nil => exact .nil
    | cons line lines =>
      by_cases hmark : line.head? = some '\ufeff'
      · obtain ⟨rest, rfl⟩ := List.head?_eq_some_iff.mp hmark
        exact .marked
      · rw [dropFirstMark, dropMark_of_head?_ne hmark]
        exact .plain hmark

/-! ## Cutting lines into blocks -/

/-- Whether the total number of quotes in some lines is even. -/
def Balanced (lines : List (List Char)) : Prop :=
  lines.flatten.count '"' % 2 = 0

instance (lines : List (List Char)) : Decidable (Balanced lines) :=
  inferInstanceAs (Decidable (_ = _))

/-- The first block of some lines. -/
inductive IsFirstBlock (policy : Policy) (lines : List (List Char)) : List (List Char) → Prop
  | single {line : List Char} : policy ≠ .quotedRfc → [line] <+: lines →
      IsFirstBlock policy lines [line]
  | balanced {block : List (List Char)} : policy = .quotedRfc → block ≠ [] → block <+: lines →
      Balanced block →
      (∀ run, run ≠ [] → run <+: lines → Balanced run → block.length ≤ run.length) →
      IsFirstBlock policy lines block
  | unclosed : policy = .quotedRfc → lines ≠ [] →
      (∀ run, run ≠ [] → run <+: lines → ¬Balanced run) → IsFirstBlock policy lines lines

/-- Lines cut into consecutive blocks. -/
inductive IsCut (policy : Policy) : List (List Char) → List (List (List Char)) → Prop
  | nil : IsCut policy [] []
  | cons {block rest : List (List Char)} {blocks : List (List (List Char))} :
      IsFirstBlock policy (block ++ rest) block → IsCut policy rest blocks →
      IsCut policy (block ++ rest) (block :: blocks)

variable {policy : Policy} {lines block rest : List (List Char)}

theorem IsCut.flatten_eq {blocks : List (List (List Char))} (h : IsCut policy lines blocks) :
    blocks.flatten = lines := by
  induction h with
  | nil => rfl
  | cons _ _ ih => rw [List.flatten_cons, ih]

theorem IsCut.of_cons {blocks : List (List (List Char))}
    (h : IsCut policy (block :: blocks).flatten (block :: blocks)) :
    IsFirstBlock policy (block ++ blocks.flatten) block ∧ IsCut policy blocks.flatten blocks := by
  generalize hlines : (block :: blocks).flatten = lines at h
  cases h with
  | cons hblock hblocks =>
    obtain rfl := hblocks.flatten_eq
    exact ⟨hblock, hblocks⟩

theorem IsFirstBlock.ne_nil (h : IsFirstBlock policy lines block) : block ≠ [] := by
  cases h with
  | single => exact List.cons_ne_nil _ _
  | balanced _ hne => exact hne
  | unclosed _ hne => exact hne

theorem IsFirstBlock.isPrefix (h : IsFirstBlock policy lines block) : block <+: lines := by
  cases h with
  | single _ hprefix => exact hprefix
  | balanced _ _ hprefix => exact hprefix
  | unclosed => exact List.prefix_rfl

/-- A block ends with the first line with which its quotes are even in number. -/
theorem IsFirstBlock.not_balanced (h : IsFirstBlock .quotedRfc lines block)
    {run : List (List Char)} (hne : run ≠ []) (hrun : run <+: block) (hlt : run ≠ block) :
    ¬Balanced run := by
  cases h with
  | single hpolicy => exact absurd rfl hpolicy
  | balanced _ _ hprefix _ hshortest =>
    intro hbalanced
    have hle := hshortest run hne (hrun.trans hprefix) hbalanced
    exact hlt (hrun.eq_of_length_le hle)
  | unclosed _ _ hopen => exact hopen run hne hrun

/-- Only at the end of the input can the quotes of a block be odd in number. -/
theorem IsFirstBlock.balanced_or (h : IsFirstBlock .quotedRfc (block ++ rest) block) :
    Balanced block ∨ rest = [] := by
  generalize hlines : block ++ rest = lines at h
  cases h with
  | single hpolicy => exact absurd rfl hpolicy
  | balanced _ _ _ hbalanced => exact .inl hbalanced
  | unclosed => exact .inr (List.append_right_eq_self.mp hlines)

theorem IsFirstBlock.eq_nil_of_ne {line : List Char} {more : List (List Char)}
    (hpolicy : policy ≠ .quotedRfc) (h : IsFirstBlock policy lines (line :: more)) : more = [] := by
  cases h with
  | single => rfl
  | balanced hrfc => exact absurd hrfc hpolicy
  | unclosed hrfc => exact absurd hrfc hpolicy

theorem exists_isFirstBlock (policy : Policy) (hne : lines ≠ []) :
    ∃ block, IsFirstBlock policy lines block := by
  by_cases hpolicy : policy = .quotedRfc
  · by_cases hrun : ∃ n, lines.take n ≠ [] ∧ Balanced (lines.take n)
    · classical
      obtain ⟨hfound, hbalanced⟩ := Nat.find_spec hrun
      refine ⟨_, .balanced hpolicy hfound (List.take_prefix _ _) hbalanced ?_⟩
      intro run hrunNe hprefix hrunBalanced
      have htake : run = lines.take run.length := List.prefix_iff_eq_take.mp hprefix
      have hle : Nat.find hrun ≤ run.length :=
        Nat.find_min' hrun ⟨htake ▸ hrunNe, htake ▸ hrunBalanced⟩
      exact Nat.le_trans (List.length_take_le _ _) hle
    · refine ⟨lines, .unclosed hpolicy hne fun run hrunNe hprefix hrunBalanced => hrun ?_⟩
      have htake : run = lines.take run.length := List.prefix_iff_eq_take.mp hprefix
      exact ⟨run.length, htake ▸ hrunNe, htake ▸ hrunBalanced⟩
  · obtain ⟨line, others, rfl⟩ := List.exists_cons_of_ne_nil hne
    exact ⟨[line], .single hpolicy ⟨others, rfl⟩⟩

/-- All lines can be cut into blocks. -/
theorem exists_isCut (policy : Policy) (lines : List (List Char)) :
    ∃ blocks, IsCut policy lines blocks := by
  generalize hlength : lines.length = n
  induction n using Nat.strongRecOn generalizing lines with
  | _ n ih =>
    by_cases hne : lines = []
    · exact ⟨[], hne ▸ .nil⟩
    · obtain ⟨block, hblock⟩ := exists_isFirstBlock policy hne
      obtain ⟨rest, rfl⟩ := hblock.isPrefix
      have hpos := List.length_pos_iff.mpr hblock.ne_nil
      obtain ⟨blocks, hblocks⟩ := ih rest.length
        (by rw [← hlength, List.length_append]; omega) rest rfl
      exact ⟨block :: blocks, .cons hblock hblocks⟩

/-! ## Reading a block -/

/-- A reader that has these lines still to be read. -/
def Left (reader : DelimitedReader) (lines : List (List Char)) : Prop :=
  ∃ raw : List (List Char), reader.lines = raw.map .ok ∧
    (if reader.linesRead = 0 then dropFirstMark raw else raw) = lines

variable {reader : DelimitedReader}

theorem Left.readLine_nil (h : reader.Left []) : reader.readLine = (.ok none, reader) := by
  obtain ⟨raw, hraw, hlines⟩ := h
  cases raw with
  | nil => simp [readLine, hraw]
  | cons line raw => split at hlines <;> cases hlines

theorem Left.readLine_cons {line : List Char} (h : reader.Left (line :: lines)) :
    reader.readLine = (.ok (some line), reader.after 1 (lines.map .ok)) := by
  obtain ⟨raw, hraw, hlines⟩ := h
  cases raw with
  | nil => split at hlines <;> cases hlines
  | cons first raw =>
    rw [List.map_cons] at hraw
    simp only [readLine, hraw, after]
    split at hlines <;> cases hlines <;> simp [*]

/-- The line feeds between lines are no quotes. -/
theorem isOpen_joinWith (lines : List (List Char)) :
    isOpen (Text.joinWith ['\n'] lines) = true ↔ ¬Balanced lines := by
  have hcount : (Text.joinWith ['\n'] lines).count '"' = lines.flatten.count '"' := by
    induction lines with
    | nil => rfl
    | cons line lines ih =>
      cases lines with
      | nil => simp [Text.joinWith]
      | cons next lines =>
        rw [Text.joinWith_cons_cons, List.count_append, List.count_append, ih]
        simp
  rw [isOpen, hcount, Balanced, decide_eq_true_iff]
  omega

/-- Once some lines of a block have been read, the others are read behind them. -/
theorem readRest_of_isFirstBlock {read more rest : List (List Char)}
    (hread : read ≠ []) (hblock : IsFirstBlock .quotedRfc (read ++ more ++ rest) (read ++ more))
    (hcount : reader.linesRead ≠ 0) (hlines : reader.lines = (more ++ rest).map .ok) :
    reader.readRest (Text.joinWith ['\n'] read) =
      (.ok (Text.joinWith ['\n'] (read ++ more)), reader.after more.length (rest.map .ok)) := by
  induction more generalizing read reader with
  | nil =>
    have hsame : reader.after 0 (rest.map .ok) = reader := by
      rw [after, ← List.nil_append rest, ← hlines]
      rfl
    rw [List.append_nil] at hblock ⊢
    rw [List.length_nil, hsame]
    by_cases hbalanced : Balanced read
    · exact readRest_of_not_isOpen (by rw [← Bool.not_eq_true, isOpen_joinWith]; simpa)
    · -- The end of the input ends a block whose quotes are still open.
      obtain rfl := hblock.balanced_or.resolve_left hbalanced
      rw [readRest, if_pos ((isOpen_joinWith read).mpr hbalanced)]
      have hend : reader.readLine = (.ok none, reader) :=
        Left.readLine_nil ⟨[], hlines, if_neg hcount⟩
      split <;> simp_all
  | cons line more ih =>
    have hopen : ¬Balanced read :=
      hblock.not_balanced hread (List.prefix_append read _) (by simp)
    have hline : reader.readLine = (.ok (some line), reader.after 1 ((more ++ rest).map .ok)) :=
      Left.readLine_cons ⟨_, hlines, if_neg hcount⟩
    rw [List.append_cons] at hblock ⊢
    rw [readRest_of_isOpen ((isOpen_joinWith read).mpr hopen) hline]
    have hjoin : Text.joinWith ['\n'] read ++ '\n' :: line =
        Text.joinWith ['\n'] (read ++ [line]) := by
      rw [Text.joinWith_concat hread, List.singleton_append]
    rw [hjoin, ih (by simp) hblock (Nat.succ_ne_zero _) rfl, after_after, List.length_cons,
      Nat.add_comm]

theorem Left.readText_nil (h : reader.Left []) : reader.readText = (.ok none, reader) := by
  rw [readText, h.readLine_nil]

/-- The text of the next record is that of the next block. -/
theorem Left.readText_of_isFirstBlock (h : reader.Left (block ++ rest))
    (hblock : IsFirstBlock reader.dialect.policy (block ++ rest) block) :
    reader.readText =
      (.ok (some (Text.joinWith ['\n'] block)), reader.after block.length (rest.map .ok)) := by
  obtain ⟨line, more, rfl⟩ := List.exists_cons_of_ne_nil hblock.ne_nil
  have hline := h.readLine_cons
  by_cases hpolicy : reader.dialect.policy = .quotedRfc
  · rw [hpolicy] at hblock
    have hrest := @readRest_of_isFirstBlock (reader.after 1 ((more ++ rest).map .ok)) [line] more
      rest (List.cons_ne_nil line []) hblock (Nat.succ_ne_zero _) rfl
    rw [after_after, Nat.add_comm] at hrest
    exact readText_of_readRest hline hpolicy hrest
  · obtain rfl : more = [] := hblock.eq_nil_of_ne hpolicy
    rw [readText, hline]
    exact if_neg hpolicy

/-! ## Reading all blocks -/

/-- The fields of a block, which is divided as one text. -/
def blockSplit (dialect : Dialect) (preserve : Bool) (block : List (List Char)) :
    Delimited.Split :=
  Delimited.split dialect preserve (Text.joinWith ['\n'] block)

/-- The fields of a block as texts. -/
def blockFields (dialect : Dialect) (preserve : Bool) (block : List (List Char)) :
    List String :=
  (blockSplit dialect preserve block).fields.map String.ofList

/-- The number of the line at which the first block with malformed quotes begins. -/
def irregularLine? (dialect : Dialect) (preserve : Bool) (blocks : List (List (List Char))) :
    Option Nat :=
  (blocks.findIdx? fun block => (blockSplit dialect preserve block).irregular).map fun i =>
    (blocks.take i).flatten.length + 1

theorem irregularLine?_concat (dialect : Dialect) (preserve : Bool)
    (blocks : List (List (List Char))) (block : List (List Char)) :
    irregularLine? dialect preserve (blocks ++ [block]) =
      if (blockSplit dialect preserve block).irregular then
        (irregularLine? dialect preserve blocks).or (some (blocks.flatten.length + 1))
      else irregularLine? dialect preserve blocks := by
  have htake : ∀ i, blocks.findIdx? (fun block => (blockSplit dialect preserve block).irregular) =
      some i → (blocks ++ [block]).take i = blocks.take i := by
    intro i hi
    obtain ⟨hlt, -⟩ := List.findIdx?_eq_some_iff_getElem.mp hi
    exact List.take_append_of_le_length (Nat.le_of_lt hlt)
  rw [irregularLine?, irregularLine?, List.findIdx?_append]
  cases hfound : blocks.findIdx? fun block => (blockSplit dialect preserve block).irregular with
  | some i =>
    rw [Option.some_or, Option.map_some, Option.map_some, htake i hfound, Option.some_or, ite_self]
  | none =>
    rw [Option.none_or, List.findIdx?_singleton, Option.map_none, Option.none_or]
    split
    · simp
    · rfl

/-- A reader that has read the first of these blocks and has the others still to be read. -/
structure Between (reader : DelimitedReader) (dialect : Dialect) (preserve : Bool)
    (done left : List (List (List Char))) : Prop where
  dialect_eq : reader.dialect = dialect
  preserve_eq : reader.preserve = preserve
  pulls : reader.closed = false
  left : reader.Left left.flatten
  linesRead : reader.linesRead = done.flatten.length
  irregular : reader.irregular = irregularLine? dialect preserve done

section

variable {dialect : Dialect} {preserve : Bool} {done left : List (List (List Char))}

/-- One block is read: its lines are counted, and so is the line at which it begins if its
quotes are malformed and no earlier ones were. -/
theorem Between.readFields (h : reader.Between dialect preserve done (block :: left))
    (hblock : IsFirstBlock dialect.policy (block ++ left.flatten) block) :
    ∃ reader', reader.readFields =
        (.ok (some (blockSplit dialect preserve block).fields), reader') ∧
      reader'.Between dialect preserve (done ++ [block]) left ∧ reader'.header = reader.header := by
  have htext := Left.readText_of_isFirstBlock h.left (by rwa [h.dialect_eq])
  refine ⟨{ reader.after block.length (left.flatten.map .ok) with
    irregular := irregularLine? dialect preserve (done ++ [block]) }, ?_, ?_, rfl⟩
  · rw [irregularLine?_concat, ← h.irregular, ← h.linesRead]
    simp only [DelimitedReader.readFields, h.pulls, htext, h.dialect_eq, h.preserve_eq, blockSplit]
    rfl
  · have hpos := List.length_pos_iff.mpr hblock.ne_nil
    obtain ⟨n, hn⟩ := Nat.exists_eq_add_of_lt hpos
    refine ⟨h.dialect_eq, h.preserve_eq, h.pulls, ⟨left.flatten, rfl, if_neg ?_⟩, ?_, rfl⟩
    · simp only [after]
      omega
    · simp only [after, List.flatten_append, List.flatten_singleton, List.length_append,
        h.linesRead]

/-- The record of a block. -/
theorem Between.next (h : reader.Between dialect preserve done (block :: left))
    (hblock : IsFirstBlock dialect.policy (block ++ left.flatten) block) :
    ∃ reader', RecordSource.next reader =
        (.ok (some (Record.ofTexts (blockFields dialect preserve block))), reader') ∧
      reader'.Between dialect preserve (done ++ [block]) left := by
  obtain ⟨reader', hfields, hbetween, -⟩ := h.readFields hblock
  refine ⟨{ reader' with
      recordsRead := reader'.recordsRead + 1
      fieldCounts := reader'.fieldCounts.observe
        ⟨reader'.recordsRead + 1, (blockSplit dialect preserve block).fields.length⟩ },
    ?_, hbetween.dialect_eq, hbetween.preserve_eq, hbetween.pulls, hbetween.left,
    hbetween.linesRead, hbetween.irregular⟩
  show DelimitedReader.next reader = _
  rw [DelimitedReader.next, hfields, Record.ofTexts, blockFields, List.map_map]
  rfl

theorem Between.readFields_nil (h : reader.Between dialect preserve done []) :
    reader.readFields = (.ok none, reader) := by
  simp [DelimitedReader.readFields, h.pulls, Left.readText_nil h.left]

theorem Between.next_nil (h : reader.Between dialect preserve done []) :
    RecordSource.next reader = (.ok none, reader) := by
  show DelimitedReader.next reader = _
  rw [DelimitedReader.next, h.readFields_nil]

theorem Between.setHeader (h : reader.Between dialect preserve done left)
    (header : Option (List String)) :
    Between { reader with header } dialect preserve done left :=
  ⟨h.dialect_eq, h.preserve_eq, h.pulls, h.left, h.linesRead, h.irregular⟩

/-- The records of all blocks that are left. -/
theorem Between.yieldsTo (hcut : IsCut dialect.policy left.flatten left)
    (h : reader.Between dialect preserve done left) :
    ∃ last : DelimitedReader, last.Between dialect preserve (done ++ left) [] ∧
      RecordSource.YieldsTo reader
        (left.map fun block => Record.ofTexts (blockFields dialect preserve block)) last := by
  induction left generalizing reader done with
  | nil => exact ⟨reader, by rwa [List.append_nil], h.next_nil⟩
  | cons block left ih =>
    obtain ⟨hblock, hleft⟩ := hcut.of_cons
    obtain ⟨reader', hnext, hbetween⟩ := h.next hblock
    obtain ⟨last, hlast, hyields⟩ := ih hleft hbetween
    rw [List.append_assoc, List.singleton_append] at hlast
    exact ⟨last, hlast, reader', hnext, hyields⟩

end

/-! ## Reading a table -/

theorem length_dropFirstMark (lines : List (List Char)) :
    (dropFirstMark lines).length = lines.length := by
  cases lines <;> rfl

/-- What is reported of a table in which quotes are malformed from the given line on. -/
def quotingWarning (policy : Policy) (line : Nat) : String :=
  let policyName := policy.name
  s!"inconsistent double quote escaping in \"{policyName}\" input, e.g. at line {line}"

theorem Between.warnings {dialect : Dialect} {preserve : Bool}
    {done left : List (List (List Char))} (h : reader.Between dialect preserve done left) :
    RecordSource.warnings reader =
      ((irregularLine? dialect preserve done).map (quotingWarning dialect.policy)).toList ++
        reader.fieldCounts.warning?.toList := by
  show DelimitedReader.warnings reader = _
  simp only [DelimitedReader.warnings, h.irregular, h.dialect_eq]
  rfl

/-- Starting to read a table reads the block of its header, if it has one. -/
theorem exists_start_between {format : TableFormat} {dialect : Dialect}
    (hvalid : format.dialect.validate = .ok dialect) {raw : List (List Char)}
    {blocks : List (List (List Char))} (hcut : IsCut dialect.policy (dropFirstMark raw) blocks) :
    ∃ reader, start format (raw.map .ok) = .ok reader ∧
      reader.header = (if format.hasHeader then
        blocks.head?.map (blockFields dialect format.preserveQuotes) else none) ∧
      reader.Between dialect format.preserveQuotes
        (if format.hasHeader then blocks.take 1 else [])
        (if format.hasHeader then blocks.tail else blocks) := by
  have hflatten := hcut.flatten_eq
  have hopened : Between ⟨dialect, format.preserveQuotes, none, raw.map .ok, 0, 0, none, .none,
      false⟩ dialect format.preserveQuotes [] blocks :=
    ⟨rfl, rfl, rfl, ⟨raw, rfl, hflatten.symm⟩, rfl, rfl⟩
  cases hheader : format.hasHeader with
  | false => exact ⟨_, by rw [start, hvalid, hheader]; rfl, rfl, hopened⟩
  | true =>
    cases blocks with
    | nil =>
      refine ⟨_, ?_, rfl, hopened.setHeader none⟩
      rw [start, hvalid, ok_bind, hheader, if_pos rfl, hopened.readFields_nil]
      rfl
    | cons block blocks =>
      rw [← hflatten] at hcut
      obtain ⟨reader, hfields, hbetween, -⟩ := hopened.readFields hcut.of_cons.1
      refine ⟨_, ?_, rfl,
        hbetween.setHeader (some (blockFields dialect format.preserveQuotes block))⟩
      rw [start, hvalid, ok_bind, hheader, if_pos rfl, hfields]
      rfl

theorem IsCut.tail {blocks : List (List (List Char))} (h : IsCut policy lines blocks) :
    IsCut policy blocks.tail.flatten blocks.tail := by
  cases h with
  | nil => exact .nil
  | cons _ hblocks => exact hblocks.flatten_eq.symm ▸ hblocks

/-- A table in any text is read block by block.  There is a way to cut its lines, without a
byte order mark at the start of the first one, into blocks; and however they are cut so, the
first block is the header if there is one, and the others are the records in their order.  At
the end all lines have been counted, and a warning names the line at which the first block with
malformed quotes begins, if there is one. -/
theorem blocks_of_start {format : TableFormat} {dialect : Dialect}
    (hvalid : format.dialect.validate = .ok dialect) (text : List Char) :
    (∃ raw lines blocks, Text.IsLines text raw ∧ IsUnmarked raw lines ∧
      IsCut dialect.policy lines blocks) ∧
    ∀ raw lines blocks, Text.IsLines text raw → IsUnmarked raw lines →
      IsCut dialect.policy lines blocks → blocks.flatten = lines ∧
      ∃ reader last : DelimitedReader,
        start format (InputLine.ofBytes (Text.Utf8.encode text)) = .ok reader ∧
        reader.header = (if format.hasHeader then
          blocks.head?.map (blockFields dialect format.preserveQuotes) else none) ∧
        RecordSource.YieldsTo reader ((if format.hasHeader then blocks.tail else blocks).map
          fun block => Record.ofTexts (blockFields dialect format.preserveQuotes block)) last ∧
        last.linesRead = raw.length ∧
        RecordSource.warnings last =
          ((irregularLine? dialect format.preserveQuotes blocks).map
            (quotingWarning dialect.policy)).toList ++ last.fieldCounts.warning?.toList := by
  constructor
  · obtain ⟨blocks, hcut⟩ := exists_isCut dialect.policy (dropFirstMark (Text.lines text))
    exact ⟨_, _, blocks, Text.isLines_lines text, isUnmarked_iff.mpr rfl, hcut⟩
  intro raw lines blocks hraw hunmarked hcut
  obtain rfl := Text.isLines_iff.mp hraw
  obtain rfl := isUnmarked_iff.mp hunmarked
  have hflatten := hcut.flatten_eq
  obtain ⟨reader, hstart, hheader, hbetween⟩ := exists_start_between hvalid hcut
  have hleft : IsCut dialect.policy (if format.hasHeader then blocks.tail else blocks).flatten
      (if format.hasHeader then blocks.tail else blocks) := by
    split
    · exact hcut.tail
    · exact hflatten.symm ▸ hcut
  have hall : (if format.hasHeader then blocks.take 1 else []) ++
      (if format.hasHeader then blocks.tail else blocks) = blocks := by
    split
    · rw [← List.drop_one, List.take_append_drop]
    · rfl
  obtain ⟨last, hlast, hyields⟩ := hbetween.yieldsTo hleft
  rw [hall] at hlast
  refine ⟨hflatten, reader, last, ?_, hheader, hyields, ?_, hlast.warnings⟩
  · rw [InputLine.ofBytes_encode]
    exact hstart
  · rw [hlast.linesRead, hflatten, length_dropFirstMark]

/-- The first line is a block of its own if its quotes are even in number. -/
theorem isFirstBlock_singleton {line : List Char} (hbalanced : Balanced [line])
    (rest : List (List Char)) : IsFirstBlock .quotedRfc ([line] ++ rest) [line] :=
  .balanced rfl (List.cons_ne_nil line []) (List.prefix_append _ rest) hbalanced
    fun _ hrun _ _ => List.length_pos_iff.mpr hrun

/-- Two lines are a block if the quotes of the first one are open and those of both are not. -/
theorem isFirstBlock_pair {line next : List Char} (hopen : ¬Balanced [line])
    (hbalanced : Balanced [line, next]) (rest : List (List Char)) :
    IsFirstBlock .quotedRfc ([line, next] ++ rest) [line, next] := by
  refine .balanced rfl (List.cons_ne_nil line _) (List.prefix_append _ rest) hbalanced ?_
  rintro run hrun hprefix hrunBalanced
  by_contra hlt
  obtain ⟨first, rfl⟩ := List.length_eq_one_iff.mp
    (Nat.le_antisymm (Nat.lt_succ_iff.mp (Nat.not_le.mp hlt)) (List.length_pos_iff.mpr hrun))
  obtain ⟨rfl, -⟩ := List.cons_prefix_cons.mp hprefix
  exact hopen hrunBalanced

/-- A byte order mark, two ends of lines, a quoted field over two lines and one that is not
closed. -/
theorem blocks_of_start_header :
    let format : TableFormat := ⟨⟨[','], .quotedRfc⟩, true, false, false⟩
    let text := "\ufeffx,y\r\n\"a\nb\",1\n\"c".toList
    format.dialect.validate = .ok format.dialect ∧
      ∃ reader last : DelimitedReader,
        start format (InputLine.ofBytes (Text.Utf8.encode text)) = .ok reader ∧
        reader.header = some ["x", "y"] ∧
        RecordSource.YieldsTo reader [Record.ofTexts ["a\nb", "1"], Record.ofTexts ["\"c"]] last ∧
        last.linesRead = 4 ∧
        RecordSource.warnings last =
          "inconsistent double quote escaping in \"quoted_rfc\" input, e.g. at line 4" ::
            last.fieldCounts.warning?.toList := by
  intro format text
  have hraw : Text.IsLines text
      ["\ufeffx,y".toList, "\"a".toList, "b\",1".toList, "\"c".toList] :=
    Text.isLines_iff.mpr (by decide +kernel)
  have hcut : IsCut .quotedRfc ["x,y".toList, "\"a".toList, "b\",1".toList, "\"c".toList]
      [["x,y".toList], ["\"a".toList, "b\",1".toList], ["\"c".toList]] := by
    have hopen : IsFirstBlock .quotedRfc (["\"c".toList] ++ []) ["\"c".toList] := by
      refine .unclosed rfl (List.cons_ne_nil _ _) fun run hrun hprefix => ?_
      obtain rfl := hprefix.eq_of_length_le (List.length_pos_iff.mpr hrun)
      decide
    exact .cons (isFirstBlock_singleton (by decide) _)
      (.cons (isFirstBlock_pair (by decide) (by decide) _) (.cons hopen .nil))
  have hheader : blockFields format.dialect false ["x,y".toList] = ["x", "y"] := by
    decide +kernel
  have hfields : [["\"a".toList, "b\",1".toList], ["\"c".toList]].map
      (blockFields format.dialect false) = [["a\nb", "1"], ["\"c"]] := by
    decide +kernel
  have hrecords := congrArg (List.map Record.ofTexts) hfields
  rw [List.map_map] at hrecords
  have hline : irregularLine? format.dialect false
      [["x,y".toList], ["\"a".toList, "b\",1".toList], ["\"c".toList]] = some 4 := by
    decide +kernel
  obtain ⟨-, hblocks⟩ := @blocks_of_start format format.dialect rfl text
  obtain ⟨-, reader, last, hstart, hshown, hyields, hcount, hwarnings⟩ :=
    hblocks _ _ _ hraw .marked hcut
  refine ⟨rfl, reader, last, hstart, hshown.trans (congrArg some hheader), ?_, hcount, ?_⟩
  · exact (congrArg (RecordSource.YieldsTo reader · last) hrecords).mp hyields
  · rw [hwarnings, hline]
    rfl

end DelimitedReader
end TableQuery
