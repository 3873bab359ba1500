import TableQuery.Proofs.Query.Clauses
import TableQuery.Proofs.Query.Scanning

/-!
# Repeated clauses

The keyword of a clause is looked for from left to right, and the space that delimits a
keyword on the right does not delimit another one on the left.  A scan therefore finds the
keyword twice exactly if it stands at two places of the text with more than one space
between them.  A keyword right behind another one of its kind is not seen, and becomes a
part of the text of the clause.
-/

namespace TableQuery

/-- Whether a text is the keyword of a clause, in any letter case. -/
structure ClauseKind.IsKeyword (kind : ClauseKind) (joinKind : JoinKind) (keyword : List Char) :
    Prop where
  tight : Text.IsTight keyword
  spells : (joinKind, Text.capitalWords keyword) ∈ kind.forms

theorem ClauseKind.IsKeyword.ne_nil {kind : ClauseKind} {joinKind : JoinKind}
    {keyword : List Char} (h : kind.IsKeyword joinKind keyword) : keyword ≠ [] := by
  rintro rfl
  exact (kind.words_of_mem_forms _ h.spells).1 rfl

namespace KeywordPlace

/-- Whether a place of a text is that of a keyword, delimited by a space or the end of the
text on both sides. -/
def StandsIn (place : KeywordPlace) (query : List Char) : Prop :=
  ∃ before keyword after, query = before ++ (keyword ++ after) ∧
    place.start = before.length ∧ place.stop = before.length + keyword.length ∧
    (∀ c ∈ before.getLast?, c = ' ') ∧ Text.atDelimiter after = true ∧
    place.kind.IsKeyword place.joinKind keyword

variable {kind : ClauseKind} {joinKind : JoinKind} {query front s : List Char}
  {place first second : KeywordPlace} {position skip n : Nat} {delimited : Bool}

/-! ## Keywords at the start of a text -/

theorem exists_of_form?_eq_some (h : form? s kind.forms = some (joinKind, n)) :
    ∃ keyword after, s = keyword ++ after ∧ keyword.length = n ∧
      Text.atDelimiter after = true ∧ kind.IsKeyword joinKind keyword := by
  obtain ⟨form, hform, after, hafter, hdelimiter, rfl, hlength⟩ := exists_of_form? h
  obtain ⟨hne, hwords⟩ := kind.words_of_mem_forms form hform
  obtain ⟨keyword, rfl, hcapital, htight⟩ := Text.exists_of_dropWords? hne hwords hafter
  refine ⟨keyword, after, rfl, ?_, hdelimiter, htight, ?_⟩
  · rw [← hlength, List.length_append, Nat.add_sub_cancel]
  · rw [hcapital]
    exact hform

theorem form?_eq_some_of_isKeyword {keyword after : List Char}
    (h : kind.IsKeyword joinKind keyword) (hafter : Text.atDelimiter after = true) :
    form? (keyword ++ after) kind.forms = some (joinKind, keyword.length) := by
  have hne := (kind.words_of_mem_forms _ h.spells).1
  rw [form?_eq_some kind.pairwise_forms kind.words_of_mem_forms h.spells
    (Text.dropWords?_append hne h.tight after) hafter, List.length_append, Nat.add_sub_cancel]

/-! ## Keywords found by a scan -/

/-- The first place at which a scan can still find a keyword. -/
def nextStart (position skip : Nat) (delimited : Bool) : Nat :=
  if delimited && skip == 0 then position else position + skip + 1

theorem nextStart_le_of_mem_allFrom (h : place ∈ allFrom kind position skip delimited s) :
    nextStart position skip delimited ≤ place.start := by
  induction s generalizing position skip delimited with
  | nil => cases h
  | cons c s ih =>
    rw [allFrom] at h
    split at h
    · next hskip =>
      have hlater := ih h
      simp only [nextStart, Bool.false_and, Bool.false_eq_true, if_false] at hlater ⊢
      split <;> omega
    · next hskip =>
      obtain rfl : skip = 0 := by omega
      split at h
      · next hform =>
        have hdelimited : delimited = true := by
          by_contra hnot
          rw [if_neg hnot] at hform
          cases hform
        subst hdelimited
        rcases List.mem_cons.mp h with rfl | h
        · exact Nat.le_refl _
        · have hlater := ih h
          simp only [nextStart, Bool.false_and, Bool.false_eq_true, if_false] at hlater ⊢
          simp only [Bool.true_and, beq_self_eq_true, if_true]
          omega
      · have hlater := ih h
        simp only [nextStart] at hlater ⊢
        split at hlater <;> split <;> omega

/-- What a scan finds are places of keywords. -/
theorem standsIn_of_mem_allFrom (h : place ∈ allFrom kind position skip delimited s)
    (hquery : query = front ++ s) (hposition : position = front.length)
    (hdelimited : delimited = true → ∀ c ∈ front.getLast?, c = ' ') :
    place.kind = kind ∧ place.StandsIn query := by
  induction s generalizing position skip delimited front with
  | nil => cases h
  | cons c s ih =>
    have hquery' : query = (front ++ [c]) ++ s := by rw [hquery, List.append_assoc]; rfl
    have hposition' : position + 1 = (front ++ [c]).length := by
      rw [List.length_append, hposition]
      rfl
    rw [allFrom] at h
    have hclosed : false = true → ∀ d ∈ (front ++ [c]).getLast?, d = ' ' := fun h => by cases h
    split at h
    · exact ih h hquery' hposition' hclosed
    · split at h
      · next joinKind length hform =>
        rcases List.mem_cons.mp h with rfl | h
        · have hopen : delimited = true := by
            by_contra hnot
            rw [if_neg hnot] at hform
            cases hform
          rw [if_pos hopen] at hform
          obtain ⟨keyword, after, hs, rfl, hafter, hkeyword⟩ := exists_of_form?_eq_some hform
          refine ⟨rfl, front, keyword, after, ?_, hposition, ?_, hdelimited hopen, hafter,
            hkeyword⟩
          · rw [hquery, hs]
          · rw [hposition]
        · exact ih h hquery' hposition' hclosed
      · refine ih h hquery' hposition' fun hspace d hd => ?_
        rw [List.getLast?_concat] at hd
        cases hd
        exact eq_of_beq hspace

/-- A scan goes on behind the first keyword that it finds. -/
theorem exists_of_allFrom_eq_cons {rest : List KeywordPlace}
    (h : allFrom kind position skip delimited s = first :: rest) :
    ∃ before c after, s = before ++ c :: after ∧ first.start = position + before.length ∧
      first.start ≤ first.stop ∧
      rest = allFrom kind (first.start + 1) (first.stop - first.start) false after := by
  induction s generalizing position skip delimited with
  | nil => cases h
  | cons c s ih =>
    have hlater : ∀ {skip delimited}, allFrom kind (position + 1) skip delimited s = first :: rest →
        ∃ before d after, c :: s = before ++ d :: after ∧
          first.start = position + before.length ∧ first.start ≤ first.stop ∧
          rest = allFrom kind (first.start + 1) (first.stop - first.start) false after := by
      intro skip delimited h
      obtain ⟨before, d, after, rfl, hstart, hstop, hrest⟩ := ih h
      refine ⟨c :: before, d, after, rfl, ?_, hstop, hrest⟩
      rw [hstart, List.length_cons]
      omega
    rw [allFrom] at h
    split at h
    · exact hlater h
    · split at h
      · obtain ⟨rfl, rfl⟩ := List.cons.inj h
        refine ⟨[], c, s, rfl, rfl, Nat.le_add_right _ _, ?_⟩
        rw [Nat.add_sub_cancel_left]
      · exact hlater h

/-- A scan finds a keyword at the latest where one stands. -/
theorem exists_allFrom_eq_cons (hplace : place.StandsIn query) (hkind : place.kind = kind)
    (hquery : query = front ++ s) (hposition : position = front.length)
    (hstart : nextStart position skip delimited ≤ place.start) :
    ∃ first rest, allFrom kind position skip delimited s = first :: rest ∧
      first.start ≤ place.start := by
  obtain ⟨before, keyword, after, hplaced, hbefore, -, hlast, hafter, hkeyword⟩ := hplace
  rw [hkind] at hkeyword
  have hpos : 0 < keyword.length := List.length_pos_iff.mpr hkeyword.ne_nil
  have hlength : query.length = place.start + (keyword.length + after.length) := by
    rw [hplaced, List.length_append, List.length_append, hbefore]
  induction s generalizing position skip delimited front with
  | nil =>
    rw [hquery, List.append_nil, ← hposition] at hlength
    unfold nextStart at hstart
    split at hstart <;> omega
  | cons c s ih =>
    have hquery' : query = (front ++ [c]) ++ s := by rw [hquery, List.append_assoc]; rfl
    have hposition' : position + 1 = (front ++ [c]).length := by
      rw [List.length_append, hposition]
      rfl
    rw [allFrom]
    split
    · next hskip =>
      refine ih hquery' hposition' ?_
      simp only [nextStart, Bool.false_and, Bool.false_eq_true, if_false] at hstart ⊢
      split at hstart
      · simp_all
      · omega
    · next hskip =>
      obtain rfl : skip = 0 := by omega
      split
      · next joinKind length hform =>
        refine ⟨_, _, rfl, ?_⟩
        have hopen : delimited = true := by
          by_contra hnot
          rw [if_neg hnot] at hform
          cases hform
        simpa [nextStart, hopen] using hstart
      · next hform =>
        by_cases hhere : place.start = position
        · -- The keyword stands here, so that it would have been found.
          have hopen : delimited = true := by
            by_contra hnot
            simp [nextStart, hnot] at hstart
            omega
          have hs : c :: s = keyword ++ after :=
            (List.append_inj (hquery.symm.trans hplaced) (by omega)).2
          rw [if_pos hopen, hs, form?_eq_some_of_isKeyword hkeyword hafter] at hform
          cases hform
        · refine ih hquery' hposition' ?_
          by_cases hnext : place.start = position + 1
          · have hc : before = front ++ [c] :=
              (List.append_inj (hplaced.symm.trans hquery') (by omega)).1
            have hspace : c = ' ' := hlast c (by rw [hc, List.getLast?_concat]; rfl)
            simp [nextStart, hspace, hnext]
          · unfold nextStart at hstart ⊢
            split at hstart <;> split <;> omega

/-! ## Keywords that overlap -/

/-- The last word of a keyword is not inside another one of its kind. -/
theorem getLast?_notMem_dropLast (kind : ClauseKind) :
    ∀ form ∈ kind.forms, ∀ other ∈ kind.forms, ∀ word ∈ form.2.getLast?,
      word ∉ other.2.dropLast := by
  cases kind <;> decide

/-- Of two keywords of a kind the one that begins first ends first. -/
theorem stop_le_stop (hfirst : first.StandsIn query) (hsecond : second.StandsIn query)
    (hkind : first.kind = second.kind) (hstart : first.start ≤ second.start) :
    first.stop ≤ second.stop := by
  obtain ⟨before, keyword, after, hquery, hbefore, hstop, -, -, hkeyword⟩ := hfirst
  obtain ⟨before', keyword', after', hquery', hbefore', hstop', hspace', hafter', hkeyword'⟩ :=
    hsecond
  by_contra hlt
  -- Otherwise the second keyword stands inside the first one, with words behind it.
  obtain ⟨between, rfl⟩ : before <+: before' :=
    List.prefix_of_prefix_length_le ⟨_, hquery.symm⟩ ⟨_, hquery'.symm⟩ (by omega)
  obtain ⟨behind, rfl⟩ : between ++ keyword' <+: keyword := by
    have hinside : between ++ keyword' <+: keyword ++ after := by
      refine ⟨after', (List.append_right_inj before).mp ?_⟩
      rw [← hquery, hquery', List.append_assoc, List.append_assoc]
    refine List.prefix_of_prefix_length_le hinside (List.prefix_append _ _) ?_
    simp only [List.length_append] at *
    omega
  obtain ⟨c, behind, rfl⟩ : ∃ c others, behind = c :: others := by
    refine List.exists_cons_of_ne_nil ?_
    rintro rfl
    simp only [List.length_append, List.length_nil] at *
    omega
  obtain rfl : after' = c :: behind ++ after := by
    rw [hquery] at hquery'
    simpa only [List.append_assoc, List.append_cancel_left_eq] using hquery'.symm
  have hbehind : Text.atDelimiter (c :: behind) = true := hafter'
  have hwords : Text.capitalWords (between ++ keyword' ++ c :: behind) =
      Text.capitalWords between ++ Text.capitalWords keyword' ++
        Text.capitalWords (c :: behind) := by
    rw [Text.capitalWords_append _ hbehind]
    congr 1
    rcases List.eq_nil_or_concat between with rfl | ⟨between, d, rfl⟩
    · rfl
    · have hd : d = ' ' := hspace' d (by simp)
      subst hd
      simp [Text.capitalWords_append_cons]
  have hlast : Text.capitalWords (c :: behind) ≠ [] := fun hnil => by
    obtain ⟨d, hd⟩ := Option.isSome_iff_exists.mp
      (List.getLast?_isSome.mpr (List.cons_ne_nil c behind))
    refine hkeyword.tight.2 d ?_
      (Text.eq_space_of_capitalWords_eq_nil hnil d (List.mem_of_getLast? hd))
    rw [List.getLast?_append, hd]
    rfl
  obtain ⟨word, hword⟩ := Option.isSome_iff_exists.mp
    (List.getLast?_isSome.mpr (second.kind.words_of_mem_forms _ hkeyword'.spells).1)
  refine getLast?_notMem_dropLast second.kind _ hkeyword'.spells _ (hkind ▸ hkeyword.spells)
    word hword ?_
  rw [hwords, List.dropLast_append_of_ne_nil hlast]
  exact List.mem_append_left _ (List.mem_append_right _ (List.mem_of_getLast? hword))

/-! ## Keywords that a scan finds twice -/

/-- The keyword of a clause is found twice exactly if it stands at two places with more than
one character between them. -/
theorem one?_eq_error_iff {fault : QueryFault} :
    one? query kind = .error fault ↔ fault = .repeated kind ∧
      ∃ first second : KeywordPlace, first.StandsIn query ∧ second.StandsIn query ∧
        first.kind = kind ∧ second.kind = kind ∧ first.stop + 1 < second.start := by
  have hstands : ∀ place ∈ allFrom kind 0 0 true query,
      place.kind = kind ∧ place.StandsIn query :=
    fun place hplace => standsIn_of_mem_allFrom hplace (List.nil_append query).symm rfl nofun
  constructor
  · intro h
    unfold one? at h
    split at h
    · cases h
    · cases h
    · next hnone hone =>
      obtain ⟨first, second, others, hall⟩ : ∃ first second others,
          allFrom kind 0 0 true query = first :: second :: others := by
        match allFrom kind 0 0 true query, hnone, hone with
        | [], hnone, _ => exact absurd rfl hnone
        | [place], _, hone => exact absurd rfl (hone place)
        | first :: second :: others, _, _ => exact ⟨first, second, others, rfl⟩
      rw [hall, List.forall_mem_cons, List.forall_mem_cons] at hstands
      obtain ⟨⟨hfirst, hstandsFirst⟩, ⟨hsecond, hstandsSecond⟩, -⟩ := hstands
      obtain ⟨before, c, after, -, -, hstop, hrest⟩ := exists_of_allFrom_eq_cons hall
      have hnext := nextStart_le_of_mem_allFrom (hrest ▸ List.mem_cons_self (a := second))
      simp only [nextStart, Bool.false_and, Bool.false_eq_true, if_false] at hnext
      refine ⟨(Except.error.inj h).symm, first, second, hstandsFirst, hstandsSecond, hfirst,
        hsecond, ?_⟩
      omega
  · rintro ⟨rfl, first, second, hfirst, hsecond, rfl, hkind, hbetween⟩
    -- What the scan finds first ends where the first of the two does, or before.
    have hzero : nextStart 0 0 true ≤ first.start := Nat.zero_le _
    obtain ⟨found, others, hall, hstart⟩ :=
      exists_allFrom_eq_cons hfirst rfl (List.nil_append query).symm List.length_nil.symm hzero
    rw [hall, List.forall_mem_cons] at hstands
    obtain ⟨⟨hfound, hstandsFound⟩, -⟩ := hstands
    have hstop := stop_le_stop hstandsFound hfirst hfound hstart
    obtain ⟨before, c, after, hquery, hbefore, hle, rfl⟩ := exists_of_allFrom_eq_cons hall
    have hnext : nextStart (found.start + 1) (found.stop - found.start) false ≤ second.start := by
      simp only [nextStart, Bool.false_and, Bool.false_eq_true, if_false]
      omega
    obtain ⟨again, others, hagain, -⟩ := exists_allFrom_eq_cons hsecond hkind
      (hquery.trans (List.append_cons before c after)) (by simpa using hbefore) hnext
    rw [one?, hall, hagain]

end KeywordPlace

namespace Clauses

variable {query : List Char} {kind : ClauseKind} {clauses : Clauses}

/-! ## Queries that are refused for a repeated clause

The texts of clauses are never refused for that. -/

theorem nonEmpty_ne_repeated {kind' : ClauseKind} {text : List Char} :
    nonEmpty kind' text ≠ .error (.repeated kind) := by
  rw [nonEmpty]
  split <;> exact nofun

theorem readLimit_ne_repeated {digits : List Char} :
    readLimit digits ≠ .error (.repeated kind) := by
  rw [readLimit]
  split <;> exact nofun

theorem readSelect_ne_repeated {text : List Char} :
    readSelect text ≠ .error (.repeated kind) := by
  have hlater : ∀ top rest, (do
      return (⟨← nonEmpty .select (takeDistinct rest).2, top, (takeDistinct rest).1⟩ :
        SelectClause)) ≠ .error (.repeated kind) := by
    intro top rest
    refine bind_ne_error nonEmpty_ne_repeated fun text h => ?_
    cases h
  rw [readSelect]
  split
  · exact bind_ne_error (fun h => readLimit_ne_repeated (map_eq_error_iff.mp h))
      fun limited => hlater limited.1 limited.2
  · exact hlater _ _

theorem readOrder_ne_repeated {text : List Char} :
    readOrder text ≠ .error (.repeated kind) := by
  rw [readOrder]
  dsimp only
  split <;> exact bind_ne_error nonEmpty_ne_repeated nofun

theorem add_ne_repeated {place : KeywordPlace} {text : List Char} :
    clauses.add place text ≠ .error (.repeated kind) := by
  rw [add]
  split
  · split
    · exact nofun
    · exact bind_ne_error readSelect_ne_repeated nofun
  · split
    · exact nofun
    · exact bind_ne_error nonEmpty_ne_repeated nofun
  · exact bind_ne_error nonEmpty_ne_repeated nofun
  · exact bind_ne_error readOrder_ne_repeated nofun
  · exact bind_ne_error nonEmpty_ne_repeated nofun
  · exact bind_ne_error nonEmpty_ne_repeated nofun
  · exact bind_ne_error readLimit_ne_repeated nofun
  · exact bind_ne_error nonEmpty_ne_repeated nofun

theorem addAll_ne_repeated {places : List KeywordPlace} :
    addAll query clauses places ≠ .error (.repeated kind) := by
  induction places generalizing clauses with
  | nil => exact nofun
  | cons place places ih => exact bind_ne_error add_ne_repeated fun _ => ih

theorem firstConflict_ne_repeated {pairs : List (Bool × ClauseKind × Bool × ClauseKind)} :
    firstConflict pairs ≠ .error (.repeated kind) := by
  induction pairs with
  | nil =>
    intro h
    cases h
  | cons pair pairs ih =>
    rw [firstConflict]
    split
    · intro h
      cases h
    · exact ih

theorem ofPlaces_ne_repeated {places : List KeywordPlace} :
    ofPlaces query places ≠ .error (.repeated kind) := by
  rw [ofPlaces]
  dsimp only
  split
  · exact nofun
  · refine bind_ne_error addAll_ne_repeated fun clauses => bind_ne_error ?_ nofun
    rw [check]
    dsimp only
    split
    · exact nofun
    · exact firstConflict_ne_repeated

/-- A query is refused since a clause is repeated exactly if the keyword of a clause stands at
two places with more than one character between them. -/
theorem locate_repeated_iff (query : List Char) :
    (∃ kind, locate query = .error (.repeated kind)) ↔
      ∃ first second : KeywordPlace, first.StandsIn query ∧ second.StandsIn query ∧
        first.kind = second.kind ∧ first.stop + 1 < second.start := by
  constructor
  · intro ⟨kind, h⟩
    by_contra hnone
    refine absurd h (bind_ne_error (bind_ne_error (mapM_ne_error ?_) nofun) fun places => ?_)
    · intro kind' _ hone
      obtain ⟨-, first, second, hfirst, hsecond, hkind, hkind', hbetween⟩ :=
        KeywordPlace.one?_eq_error_iff.mp hone
      exact hnone ⟨first, second, hfirst, hsecond, hkind.trans hkind'.symm, hbetween⟩
    · exact ofPlaces_ne_repeated
  · rintro ⟨first, second, hfirst, hsecond, hkind, hbetween⟩
    have hone : KeywordPlace.one? query first.kind = .error (.repeated first.kind) :=
      KeywordPlace.one?_eq_error_iff.mpr
        ⟨rfl, first, second, hfirst, hsecond, rfl, hkind.symm, hbetween⟩
    cases hall : ClauseKind.all.mapM (KeywordPlace.one? query) with
    | ok found =>
      obtain ⟨table, hkinds, -, htable⟩ := exists_zip_of_mapM_eq_ok hall
      obtain ⟨entry, hentry, hfst⟩ := List.mem_map.mp (hkinds ▸ ClauseKind.mem_all first.kind)
      have hok := htable entry hentry
      rw [hfst, hone] at hok
      cases hok
    | error fault =>
      by_cases hrepeated : ∃ kind, fault = .repeated kind
      · obtain ⟨kind, rfl⟩ := hrepeated
        refine ⟨kind, ?_⟩
        rw [locate, KeywordPlace.all, hall]
        rfl
      · refine absurd hall (mapM_ne_error fun kind _ hfault => hrepeated ?_)
        exact ⟨kind, (KeywordPlace.one?_eq_error_iff.mp hfault).1⟩

/-- A keyword right behind another one of its kind is not refused: it becomes a part of the
text of the clause. -/
theorem locate_whereWhere :
    ∃ (query : List Char) (first second : KeywordPlace),
      IsolatedQuery.ofQuery query = .ok ⟨query, []⟩ ∧
      first.StandsIn query ∧ second.StandsIn query ∧
      first.kind = second.kind ∧ first.stop < second.start ∧
      locate query = .ok { none with
        select := some ⟨"a1".toList, .none, .no⟩
        condition := some "where a2 == 1".toList } := by
  refine ⟨"select a1 where where a2 == 1".toList, ⟨.condition, .inner, 10, 15⟩,
    ⟨.condition, .inner, 16, 21⟩, ?_, ?_, ?_, rfl, by decide, ?_⟩
  · decide +kernel
  · exact ⟨"select a1 ".toList, "where".toList, " where a2 == 1".toList, rfl, rfl, rfl,
      by rintro c ⟨⟩; rfl, rfl, Text.isTight_of_notMem (by decide), by decide⟩
  · exact ⟨"select a1 where ".toList, "where".toList, " a2 == 1".toList, rfl, rfl, rfl,
      by rintro c ⟨⟩; rfl, rfl, Text.isTight_of_notMem (by decide), by decide⟩
  · have hfound : ClauseKind.all.mapM
        (KeywordPlace.one? "select a1 where where a2 == 1".toList) =
        .ok [.none, some ⟨.select, .inner, 0, 6⟩, .none, some ⟨.condition, .inner, 10, 15⟩, .none,
          .none, .none, .none] := rfl
    rw [locate_eq_ofPlaces (KeywordPlace.all_eq_ok hfound (.refl _) (by decide))]
    rfl

end Clauses
end TableQuery
