import Mathlib.Data.List.Nodup
import Mathlib.Data.List.Perm.Basic
import Mathlib.Data.List.TakeWhile
import TableQuery.Proofs.Query.Clauses
import TableQuery.Proofs.Query.Scanning

/-!
# Clauses as they are written

Clauses are written one after another with single spaces between them, each as its keyword
and a text.  If no text hides a keyword, the scans find exactly the keywords that have been
written, and each clause gets back its text.
-/

namespace TableQuery
namespace Text

variable {s : List Char}

/-! ## Trimmed texts -/

theorem dropWhile_eq_self_iff_head? {p : Char → Bool} :
    s.dropWhile p = s ↔ ∀ c ∈ s.head?, p c = false := by
  rw [List.dropWhile_eq_self_iff]
  cases s <;> simp

theorem trimEnd_eq_self_iff : trimEnd s = s ↔ ∀ c ∈ s.getLast?, isBlank c = false := by
  rw [trimEnd, trimEndBy, List.reverse_eq_iff, dropWhile_eq_self_iff_head?, List.head?_reverse]

theorem trimEnd_isPrefix (s : List Char) : trimEnd s <+: s := by
  rw [trimEnd, trimEndBy, ← List.reverse_suffix, List.reverse_reverse]
  exact List.dropWhile_suffix _

/-- A text is trimmed if neither its first nor its last character is blank. -/
theorem trim_eq_self_iff : trim s = s ↔
    (∀ c ∈ s.head?, isBlank c = false) ∧ ∀ c ∈ s.getLast?, isBlank c = false := by
  rw [← dropWhile_eq_self_iff_head?, ← trimEnd_eq_self_iff]
  refine ⟨fun h => ?_, fun ⟨hstart, hend⟩ => ?_⟩
  · have hstart : s.dropWhile isBlank = s := by
      refine (List.dropWhile_suffix isBlank).eq_of_length_le ?_
      have hlength := (trimEnd_isPrefix (s.dropWhile isBlank)).length_le
      change (trim s).length ≤ _ at hlength
      rwa [h] at hlength
    refine ⟨hstart, ?_⟩
    change trimEnd (s.dropWhile isBlank) = s at h
    rwa [hstart] at h
  · change trimEnd (s.dropWhile isBlank) = s
    rw [hstart, hend]

@[simp] theorem trim_cons_space (s : List Char) : trim (' ' :: s) = trim s :=
  rfl

/-- Trimmed texts make a trimmed text, whatever character stands between them. -/
theorem trim_append_cons {t : List Char} (hs : trim s = s) (ht : trim t = t) (hsne : s ≠ [])
    (htne : t ≠ []) (c : Char) : trim (s ++ c :: t) = s ++ c :: t := by
  obtain ⟨hfirst, -⟩ := trim_eq_self_iff.mp hs
  obtain ⟨-, hlast⟩ := trim_eq_self_iff.mp ht
  refine trim_eq_self_iff.mpr ⟨?_, ?_⟩
  · rwa [List.head?_append_of_ne_nil _ hsne]
  · rwa [List.getLast?_append_of_ne_nil _ (List.cons_ne_nil _ _),
      List.getLast?_cons_of_ne_nil htne]

theorem trim_concat_space (hne : s ≠ []) (hs : trim s = s) : trim (s ++ [' ']) = s := by
  obtain ⟨hfirst, hlast⟩ := trim_eq_self_iff.mp hs
  have hstart : (s ++ [' ']).dropWhile isBlank = s ++ [' '] := by
    refine dropWhile_eq_self_iff_head?.mpr ?_
    rwa [List.head?_append_of_ne_nil _ hne]
  change trimEnd ((s ++ [' ']).dropWhile isBlank) = s
  rw [hstart, trimEnd, trimEndBy, List.reverse_append]
  exact trimEnd_eq_self_iff.mpr hlast

end Text

/-! ## Clauses -/

/-- A text that can stand in a clause: it is not empty and has no blanks at its ends, none
of its words is a keyword in any letter case, and its last word is not one that a keyword
can go on from. -/
structure IsClauseText (text : List Char) : Prop where
  ne_nil : text ≠ []
  trimmed : Text.trim text = text
  keywordless : ∀ kind : ClauseKind, ∀ form ∈ kind.forms, ¬form.2 <:+: Text.capitalWords text
  closed : ∀ word ∈ (Text.capitalWords text).getLast?, word ∉ ClauseKind.openWords

instance (text : List Char) : Decidable (IsClauseText text) :=
  decidable_of_iff
    (text ≠ [] ∧ Text.trim text = text ∧
      (∀ kind ∈ ClauseKind.all, ∀ form ∈ kind.forms, ¬form.2 <:+: Text.capitalWords text) ∧
      ∀ word ∈ (Text.capitalWords text).getLast?, word ∉ ClauseKind.openWords)
    ⟨fun ⟨hne, htrim, hkeyword, hclosed⟩ =>
      ⟨hne, htrim, fun kind => hkeyword kind kind.mem_all, hclosed⟩,
    fun ⟨hne, htrim, hkeyword, hclosed⟩ => ⟨hne, htrim, fun kind _ => hkeyword kind, hclosed⟩⟩

/-- The keyword of a clause, spelled with single spaces in any letter case. -/
structure ClauseKeyword (kind : ClauseKind) where
  /-- The kind of join that the keyword stands for. -/
  joinKind : JoinKind
  /-- The words of the keyword. -/
  words : List (List Char)
  spells : (joinKind, words.map (List.map Text.foldToCapital)) ∈ kind.forms

/-- The text of a keyword. -/
def ClauseKeyword.chars {kind : ClauseKind} (keyword : ClauseKeyword kind) : List Char :=
  Text.joinWith [' '] keyword.words

/-- A clause as it is written. -/
structure WrittenClause where
  /-- The kind of clause. -/
  kind : ClauseKind
  /-- Its keyword. -/
  keyword : ClauseKeyword kind
  /-- The text after the keyword. -/
  body : List Char
  isClauseText : IsClauseText body

/-- A clause text is quiet whatever is written after it, as long as this does not begin with
the word `by`. -/
theorem IsClauseText.quiet {text : List Char} (h : IsClauseText text) (kind : ClauseKind)
    {next : List (List Char)} (hnext : next.head? ≠ some "BY".toList) :
    kind.Quiet (Text.capitalWords text) next := by
  intro later hlater hne form hform hfront
  rcases List.prefix_or_prefix_of_prefix hfront (List.prefix_append later next) with
    hform' | hform'
  · exact h.keywordless kind form hform (hform'.isInfix.trans hlater.isInfix)
  · -- The keyword would begin in the text and go on behind it.
    obtain ⟨behind, hbehind⟩ := hform'
    rw [← hbehind, List.prefix_append_right_inj] at hfront
    have hbehindne : behind ≠ [] := by
      rintro rfl
      rw [List.append_nil] at hbehind
      exact h.keywordless kind form hform (hbehind ▸ hlater.isInfix)
    have hlength : later.length < form.2.length := by
      rw [← hbehind, List.length_append]
      exact Nat.lt_add_of_pos_right (List.length_pos_iff.mpr hbehindne)
    rcases kind.divided_forms form hform later.length hlength (List.length_pos_iff.mpr hne) with
      hopen | hby
    · rw [← hbehind, List.take_left] at hopen
      obtain ⟨word, hword⟩ := Option.ne_none_iff_exists'.mp (mt List.getLast?_eq_none_iff.mp hne)
      have hlast : (Text.capitalWords text).getLast? = some word := by
        obtain ⟨before, hbefore⟩ := hlater
        rw [← hbefore, List.getLast?_append, hword]
        rfl
      exact h.closed word hlast (hopen word hword)
    · rw [← hbehind, List.drop_left] at hby
      obtain ⟨after, hafter⟩ := hfront
      rw [← hafter, hby] at hnext
      exact hnext rfl

namespace WrittenClause

/-- The text of a clause. -/
def chars (clause : WrittenClause) : List Char :=
  clause.keyword.chars ++ ' ' :: clause.body

/-- The place of the keyword of a clause that is written at `position`. -/
def place (clause : WrittenClause) (position : Nat) : KeywordPlace :=
  ⟨clause.kind, clause.keyword.joinKind, position, position + clause.keyword.chars.length⟩

/-- The text of some clauses, each after a space. -/
def writeAfter (clauses : List WrittenClause) : List Char :=
  clauses.flatMap fun clause => ' ' :: clause.chars

/-- The places of the keywords of some clauses, each after a space, from `position` on. -/
def placesAfter (position : Nat) : List WrittenClause → List KeywordPlace
  | [] => []
  | clause :: clauses =>
    clause.place (position + 1) :: placesAfter (position + 1 + clause.chars.length) clauses

/-- The text of clauses with single spaces between them. -/
def write (clause : WrittenClause) (clauses : List WrittenClause) : List Char :=
  clause.chars ++ writeAfter clauses

/-- The places of the keywords of clauses with single spaces between them. -/
def places (clause : WrittenClause) (clauses : List WrittenClause) : List KeywordPlace :=
  clause.place 0 :: placesAfter clause.chars.length clauses

variable {clause : WrittenClause} {clauses : List WrittenClause} {kind : ClauseKind}
  {position : Nat}

/-! ## Words -/

theorem capitalWords_chars (clause : WrittenClause) : Text.capitalWords clause.chars =
    clause.keyword.words.map (List.map Text.foldToCapital) ++ Text.capitalWords clause.body := by
  obtain ⟨hne, hwords⟩ := ClauseKind.words_of_spells clause.keyword.spells
  obtain ⟨hcapitals, hspaces⟩ := clause.kind.words_of_mem_forms _ clause.keyword.spells
  have hread := Text.dropWords?_joinWith hne hwords (' ' :: clause.body)
  have hall := Text.capitalWords_of_dropWords? hcapitals hspaces hread rfl
  rwa [Text.capitalWords_cons_space] at hall

theorem writeAfter_cons (clause : WrittenClause) (clauses : List WrittenClause) :
    writeAfter (clause :: clauses) = ' ' :: (clause.chars ++ writeAfter clauses) :=
  List.flatMap_cons ..

theorem atDelimiter_writeAfter (clauses : List WrittenClause) :
    Text.atDelimiter (writeAfter clauses) = true := by
  cases clauses <;> rfl

/-- No clause begins with the word `by`. -/
theorem head_capitalWords_writeAfter (clauses : List WrittenClause) :
    (Text.capitalWords (writeAfter clauses)).head? ≠ some "BY".toList := by
  cases clauses with
  | nil => exact nofun
  | cons clause clauses =>
    rw [writeAfter_cons, Text.capitalWords_cons_space,
      Text.capitalWords_append _ (atDelimiter_writeAfter clauses), capitalWords_chars,
      List.append_assoc, List.head?_append_of_ne_nil]
    · exact clause.kind.head_ne_by _ clause.keyword.spells
    · exact (clause.kind.words_of_mem_forms _ clause.keyword.spells).1

/-! ## Places -/

theorem exists_allFrom_chars (kind : ClauseKind) (position : Nat) (clause : WrittenClause)
    (clauses : List WrittenClause) :
    ∃ delimited, KeywordPlace.allFrom kind position 0 true (clause.chars ++ writeAfter clauses) =
      (if clause.kind = kind then [clause.place position] else []) ++
        KeywordPlace.allFrom kind (position + clause.chars.length) 0 delimited
          (writeAfter clauses) := by
  have htail := atDelimiter_writeAfter clauses
  have hquiet := clause.isClauseText.quiet kind (head_capitalWords_writeAfter clauses)
  split
  · next hkind =>
    subst hkind
    obtain ⟨delimited, hscan⟩ := KeywordPlace.exists_allFrom_append_of_quiet
      (position + clause.keyword.chars.length + 1) false htail hquiet
    refine ⟨delimited, ?_⟩
    have hkeyword := KeywordPlace.allFrom_keyword position (clause.body ++ writeAfter clauses)
      clause.keyword.spells
    rw [← ClauseKeyword.chars, hscan] at hkeyword
    rw [chars, List.append_assoc, List.cons_append, hkeyword, List.length_append, List.length_cons]
    congr 2
    omega
  · next hkind =>
    refine KeywordPlace.exists_allFrom_append_of_quiet position true htail ?_
    rw [capitalWords_chars]
    exact hquiet.append fun form hform word hword =>
      ClauseKind.head_notMem_forms (Ne.symm hkind) form hform _ clause.keyword.spells word hword

theorem filter_place_cons (kind : ClauseKind) (clause : WrittenClause) (position : Nat)
    (places : List KeywordPlace) :
    (clause.place position :: places).filter (fun place => place.kind = kind) =
      (if clause.kind = kind then [clause.place position] else []) ++
        places.filter fun place => place.kind = kind := by
  rw [List.filter_cons]
  by_cases hkind : clause.kind = kind <;> simp [hkind, place]

theorem allFrom_writeAfter (kind : ClauseKind) (position : Nat) (delimited : Bool)
    (clauses : List WrittenClause) :
    KeywordPlace.allFrom kind position 0 delimited (writeAfter clauses) =
      (placesAfter position clauses).filter fun place => place.kind = kind := by
  induction clauses generalizing position delimited with
  | nil => rfl
  | cons clause clauses ih =>
    rw [writeAfter_cons, KeywordPlace.allFrom_cons_space]
    obtain ⟨delimited', hscan⟩ := exists_allFrom_chars kind (position + 1) clause clauses
    rw [hscan, ih, placesAfter, filter_place_cons]

/-- A scan finds the keywords of its kind that have been written. -/
theorem allFrom_write (kind : ClauseKind) (clause : WrittenClause)
    (clauses : List WrittenClause) :
    KeywordPlace.allFrom kind 0 0 true (write clause clauses) =
      (places clause clauses).filter fun place => place.kind = kind := by
  obtain ⟨delimited, hscan⟩ := exists_allFrom_chars kind 0 clause clauses
  rw [write, hscan, allFrom_writeAfter, places, filter_place_cons, Nat.zero_add]

/-! ## All places -/

theorem map_kind_placesAfter (position : Nat) (clauses : List WrittenClause) :
    (placesAfter position clauses).map KeywordPlace.kind = clauses.map WrittenClause.kind := by
  induction clauses generalizing position with
  | nil => rfl
  | cons clause clauses ih => rw [placesAfter, List.map_cons, ih, List.map_cons, place]

theorem map_kind_places (clause : WrittenClause) (clauses : List WrittenClause) :
    (places clause clauses).map KeywordPlace.kind = (clause :: clauses).map WrittenClause.kind := by
  rw [places, List.map_cons, map_kind_placesAfter, List.map_cons, place]

theorem lt_start_of_mem_placesAfter {place : KeywordPlace}
    (h : place ∈ placesAfter position clauses) : position < place.start := by
  induction clauses generalizing position with
  | nil => cases h
  | cons clause clauses ih =>
    rcases List.mem_cons.mp h with rfl | h
    · exact Nat.lt_succ_self position
    · have hlater := ih h
      omega

/-- The keywords stand one after another. -/
theorem pairwise_placesAfter (position : Nat) (clauses : List WrittenClause) :
    (placesAfter position clauses).Pairwise fun p q => p.start < q.start := by
  induction clauses generalizing position with
  | nil => exact .nil
  | cons clause clauses ih =>
    refine List.pairwise_cons.mpr ⟨fun later hlater => ?_, ih _⟩
    have hlt := lt_start_of_mem_placesAfter hlater
    change position + 1 < later.start
    omega

theorem pairwise_places (clause : WrittenClause) (clauses : List WrittenClause) :
    (places clause clauses).Pairwise fun p q => p.start < q.start := by
  refine List.pairwise_cons.mpr ⟨fun later hlater => ?_, pairwise_placesAfter _ _⟩
  exact Nat.zero_lt_of_lt (lt_start_of_mem_placesAfter hlater)

/-- At most one of the places is that of a kind. -/
theorem filter_kind_eq {places : List KeywordPlace}
    (hnodup : (places.map KeywordPlace.kind).Nodup) (kind : ClauseKind) :
    (places.filter fun place => place.kind = kind) =
      (places.find? fun place => place.kind = kind).toList := by
  induction places with
  | nil => rfl
  | cons place places ih =>
    obtain ⟨hkind, hnodup⟩ := List.nodup_cons.mp hnodup
    by_cases h : place.kind = kind
    · have hnone : (places.filter fun place => place.kind = kind) = [] := by
        refine List.filter_eq_nil_iff.mpr fun other hother hsame => hkind ?_
        rw [h, ← of_decide_eq_true hsame]
        exact List.mem_map_of_mem hother
      rw [List.filter_cons_of_pos (by simpa using h), List.find?_cons_of_pos (by simpa using h),
        hnone]
      rfl
    · rw [List.filter_cons_of_neg (by simpa using h), List.find?_cons_of_neg (by simpa using h),
        ih hnodup]

theorem mem_iff_find? {places : List KeywordPlace}
    (hnodup : (places.map KeywordPlace.kind).Nodup) {place : KeywordPlace} :
    place ∈ places ↔ (places.find? fun other => other.kind = place.kind) = some place := by
  have hfilter := filter_kind_eq hnodup place.kind
  constructor
  · intro hmem
    have hfiltered : place ∈ places.filter fun other => other.kind = place.kind := by
      simp [hmem]
    rw [hfilter] at hfiltered
    simpa using hfiltered
  · exact List.mem_of_find?_eq_some

/-- Clauses of different kinds that are written with single spaces between them have their
keywords found. -/
theorem all_write (hnodup : ((clause :: clauses).map WrittenClause.kind).Nodup) :
    KeywordPlace.all (write clause clauses) = .ok (places clause clauses) := by
  rw [← map_kind_places] at hnodup
  have hone : KeywordPlace.one? (write clause clauses) =
      fun kind => pure ((places clause clauses).find? fun place => place.kind = kind) := by
    funext kind
    rw [KeywordPlace.one?, allFrom_write, filter_kind_eq hnodup]
    cases (places clause clauses).find? fun place => place.kind = kind <;> rfl
  have hfound : ClauseKind.all.mapM (KeywordPlace.one? (write clause clauses)) =
      .ok (ClauseKind.all.map fun kind =>
        (places clause clauses).find? fun place => place.kind = kind) := by
    rw [hone, List.mapM_pure]
    rfl
  refine KeywordPlace.all_eq_ok hfound ?_ (pairwise_places clause clauses)
  have hkind : ∀ kind, ∀ place ∈ (places clause clauses).find? (fun place => place.kind = kind),
      place.kind = kind := fun kind place hplace => by simpa using List.find?_some hplace
  have hall : ClauseKind.all.Nodup := by decide
  rw [List.filterMap_map]
  refine (List.perm_ext_iff_of_nodup (hnodup.of_map _) (hall.filterMap ?_)).mpr fun place => ?_
  · intro kind kind' place hplace hplace'
    rw [← hkind kind place hplace, ← hkind kind' place hplace']
  · rw [mem_iff_find? hnodup, List.mem_filterMap]
    constructor
    · intro hfind
      exact ⟨place.kind, place.kind.mem_all, hfind⟩
    · rintro ⟨kind, -, hfind⟩
      obtain rfl := hkind kind place hfind
      exact hfind

/-! ## Texts -/

/-- The text from a keyword to the next one, or to the end, is that of the clause. -/
theorem trim_take (clause : WrittenClause) {clauses : List WrittenClause} {n : Nat}
    (hn : n = clause.body.length + 1 + if clauses.isEmpty then 0 else 1) :
    Text.trim ((' ' :: (clause.body ++ writeAfter clauses)).take n) = clause.body := by
  have htext := clause.isClauseText
  cases clauses with
  | nil =>
    have htake : (' ' :: (clause.body ++ writeAfter [])).take n = ' ' :: clause.body := by
      simp [hn, writeAfter]
    rw [htake, Text.trim_cons_space, htext.trimmed]
  | cons next clauses =>
    have htake : (' ' :: (clause.body ++ writeAfter (next :: clauses))).take n =
        ' ' :: (clause.body ++ [' ']) := by
      simp [hn, writeAfter_cons, List.take_append]
    rw [htake, Text.trim_cons_space, Text.trim_concat_space htext.ne_nil htext.trimmed]

/-- A clause gets its text back. -/
theorem addAll_place {query : List Char} (hquery : query.drop position =
      clause.chars ++ writeAfter clauses) (found : Clauses) :
    Clauses.addAll query found (clause.place position ::
        placesAfter (position + clause.chars.length) clauses) =
      (found.add (clause.place position) clause.body).bind fun found =>
        Clauses.addAll query found (placesAfter (position + clause.chars.length) clauses) := by
  have hstop : (clause.place position).stop = position + clause.keyword.chars.length := rfl
  have htext : query.drop (clause.place position).stop =
      ' ' :: (clause.body ++ writeAfter clauses) := by
    rw [hstop, ← List.drop_drop, hquery, chars, List.append_assoc, List.drop_left]
    rfl
  have hlength : clause.chars.length = clause.keyword.chars.length + (clause.body.length + 1) :=
    List.length_append
  rw [Clauses.addAll.eq_def]
  dsimp only
  rw [htext]
  cases clauses with
  | nil =>
    have hend : query.length - (clause.place position).stop = clause.body.length + 1 + 0 := by
      have hrest := congrArg List.length hquery
      rw [List.length_drop, writeAfter, List.flatMap_nil, List.append_nil] at hrest
      omega
    rw [trim_take clause hend]
    rfl
  | cons next clauses =>
    have hnext : position + clause.chars.length + 1 - (clause.place position).stop =
        clause.body.length + 1 + 1 := by omega
    rw [trim_take clause hnext]
    rfl

end WrittenClause
end TableQuery
