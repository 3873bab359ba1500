import TableQuery.Proofs.Query.Repetition
import TableQuery.Proofs.Query.Sections

/-!
# Where the texts of clauses stand

The text of a clause stands between its keyword and the next one, and spaces delimit both.
What is read of it is therefore a section of the query behind its keyword, and of the query
before every later keyword.
-/

namespace TableQuery

variable {query s t : List Char} {kind : ClauseKind} {place : KeywordPlace}
  {places : List KeywordPlace}

/-- What stands behind a delimiter, without white space at its ends. -/
theorem isSection_trim_drop {n k : Nat} (h : Text.atDelimiter (s.drop n) = true) (hk : k ≤ n) :
    IsSection (Text.trim (s.drop n)) (s.drop k) := by
  cases hrest : s.drop n with
  | nil => exact fun hne => absurd rfl hne
  | cons c rest =>
    obtain rfl : c = ' ' := by simpa [hrest, Text.atDelimiter] using h
    have hsplit : s.drop k = (s.drop k).take (n - k) ++ ' ' :: rest := by
      rw [← hrest, ← Nat.add_sub_cancel' hk, ← List.drop_drop, Nat.add_sub_cancel_left,
        List.take_append_drop]
    rw [hsplit, Assignment.trim_cons_of_isBlank (by decide)]
    exact (isSection_trim rest).trans (isSection_append_cons edge_space _ rest)

namespace KeywordPlace

/-! ## Texts between keywords -/

theorem atDelimiter_of_standsIn (h : place.StandsIn query) :
    Text.atDelimiter (query.drop place.stop) = true := by
  obtain ⟨before, keyword, after, rfl, -, hstop, -, hafter, -⟩ := h
  rwa [hstop, ← List.append_assoc, ← List.length_append, List.drop_left]

/-- The text between a keyword and another place of the query. -/
def textTo (place : KeywordPlace) (query : List Char) (stop : Nat) : List Char :=
  Text.trim ((query.drop place.stop).take (stop - place.stop))

theorem textTo_length (place : KeywordPlace) (query : List Char) :
    place.textTo query query.length = Text.trim (query.drop place.stop) := by
  rw [textTo, List.take_of_length_le (by rw [List.length_drop])]

/-- The text before a later keyword ends before the space that delimits this keyword. -/
theorem exists_of_textTo {next : KeywordPlace} (hplace : place.StandsIn query)
    (hnext : next.StandsIn query) (hne : place.textTo query next.start ≠ []) :
    ∃ front rest, query = front ++ ' ' :: rest ∧ next.start = front.length + 1 ∧
      place.stop ≤ front.length ∧ Text.atDelimiter (front.drop place.stop) = true ∧
      place.textTo query next.start = Text.trim (front.drop place.stop) := by
  have hdelimiter := atDelimiter_of_standsIn hplace
  obtain ⟨before, keyword, after, rfl, hstart, -, hlast, -⟩ := hnext
  rcases List.eq_nil_or_concat before with rfl | ⟨front, c, rfl⟩
  · exact absurd (by rw [textTo, hstart, List.length_nil, Nat.zero_sub]; rfl) hne
  · obtain rfl : c = ' ' := hlast c (by rw [List.concat_eq_append, List.getLast?_concat]; rfl)
    rw [List.concat_eq_append, List.append_assoc] at hdelimiter hne ⊢
    rw [List.concat_eq_append, List.length_append] at hstart
    by_cases hstop : place.stop ≤ front.length
    · refine ⟨front, keyword ++ after, rfl, hstart, hstop, ?_, ?_⟩
      · rw [List.drop_append_of_le_length hstop] at hdelimiter
        cases hdrop : front.drop place.stop with
        | nil => rfl
        | cons d rest =>
          rw [hdrop] at hdelimiter
          exact hdelimiter
      · rw [textTo, List.drop_append_of_le_length hstop, hstart, List.length_singleton,
          Nat.sub_add_comm hstop, ← List.length_drop, List.singleton_append,
          List.take_length_add_append, List.take_succ_cons, List.take_zero,
          Assignment.trim_concat_of_isBlank (by decide)]
    · refine absurd ?_ hne
      have hle : next.start - place.stop = 0 := by
        rw [hstart, List.length_singleton]
        omega
      rw [textTo, hle]
      rfl

/-! ## The places of a query -/

theorem exists_of_one? (h : one? query kind = .ok (some place)) :
    allFrom kind 0 0 true query = [place] ∧ place.kind = kind ∧ place.StandsIn query := by
  have hall : allFrom kind 0 0 true query = [place] := by
    unfold one? at h
    split at h
    · cases h
    · next hone =>
      cases h
      exact hone
    · cases h
  exact ⟨hall, standsIn_of_mem_allFrom (hall ▸ List.mem_cons_self) (List.nil_append query).symm
    rfl nofun⟩

/-- The places of a query are those at which keywords are found, from left to right. -/
theorem pairwise_of_all (h : all query = .ok places) :
    places.Pairwise fun p q => p.start ≤ q.start := by
  obtain ⟨found, -, h⟩ := bind_eq_ok_iff.mp h
  cases h
  refine (List.pairwise_mergeSort ?_ ?_ _).imp of_decide_eq_true
  · intro p q r hpq hqr
    simp only [decide_eq_true_eq] at hpq hqr ⊢
    exact Nat.le_trans hpq hqr
  · intro p q
    simpa using Nat.le_total p.start q.start

theorem one?_of_mem_all (h : all query = .ok places) (hplace : place ∈ places) :
    one? query place.kind = .ok (some place) ∧ place.StandsIn query := by
  obtain ⟨found, hfound, h⟩ := bind_eq_ok_iff.mp h
  cases h
  obtain ⟨_, hmem, rfl⟩ := List.mem_filterMap.mp (List.mem_mergeSort.mp hplace)
  obtain ⟨table, -, rfl, htable⟩ := exists_zip_of_mapM_eq_ok hfound
  obtain ⟨entry, hentry, heq⟩ := List.mem_map.mp hmem
  have hone := htable entry hentry
  rw [heq] at hone
  obtain ⟨-, hkind, hstands⟩ := exists_of_one? hone
  rw [hkind]
  exact ⟨hone, hstands⟩

/-- The keyword of every kind is found or does not stand in the query. -/
theorem exists_one?_of_all (h : all query = .ok places) (kind : ClauseKind) :
    ∃ found, one? query kind = .ok found ∧ ∀ p ∈ found, p ∈ places := by
  obtain ⟨found, hfound, h⟩ := bind_eq_ok_iff.mp h
  cases h
  obtain ⟨table, hkinds, rfl, htable⟩ := exists_zip_of_mapM_eq_ok hfound
  obtain ⟨entry, hentry, rfl⟩ := List.mem_map.mp (hkinds ▸ ClauseKind.mem_all kind)
  refine ⟨entry.2, htable entry hentry, fun p hp => List.mem_mergeSort.mpr ?_⟩
  exact List.mem_filterMap.mpr ⟨entry.2, List.mem_map_of_mem hentry, hp⟩

/-- A keyword does not begin inside of one of another kind. -/
theorem kind_eq_of_start_lt_stop {first second : KeywordPlace} (hfirst : first.StandsIn query)
    (hsecond : second.StandsIn query) (hstart : first.start ≤ second.start)
    (hstop : second.start < first.stop) : first.kind = second.kind := by
  obtain ⟨before, keyword, after, rfl, hbefore, hlength, -, hafter, hkeyword⟩ := hfirst
  obtain ⟨before', keyword', after', hquery, hbefore', -, hlast, hafter', hkeyword'⟩ := hsecond
  obtain ⟨inner, rfl⟩ : before <+: before' :=
    List.prefix_of_prefix_length_le ⟨_, rfl⟩ ⟨_, hquery.symm⟩ (by omega)
  rw [List.append_assoc, List.append_cancel_left_eq] at hquery
  rw [List.length_append] at hbefore'
  rcases List.append_eq_append_iff.mp hquery with ⟨rest, rfl, -⟩ | ⟨rest, rfl, hrest⟩
  · rw [List.length_append] at hbefore'
    omega
  · have hwords : Text.capitalWords (inner ++ rest) =
        Text.capitalWords inner ++ Text.capitalWords rest := by
      rcases List.eq_nil_or_concat inner with rfl | ⟨inner, c, rfl⟩
      · rfl
      · obtain rfl : c = ' ' := hlast c (by simp)
        simp [Text.capitalWords_append_cons]
    have hne : Text.capitalWords rest ≠ [] := fun hnil => by
      have hrest : rest ≠ [] := by
        rintro rfl
        rw [List.append_nil] at hlength
        omega
      obtain ⟨c, hc⟩ := Option.isSome_iff_exists.mp (List.getLast?_isSome.mpr hrest)
      refine hkeyword.tight.2 c ?_
        (Text.eq_space_of_capitalWords_eq_nil hnil c (List.mem_of_getLast? hc))
      rw [List.getLast?_append, hc]
      rfl
    have hne' := (second.kind.words_of_mem_forms _ hkeyword'.spells).1
    have hsame := congrArg Text.capitalWords hrest
    rw [Text.capitalWords_append _ hafter', Text.capitalWords_append _ hafter] at hsame
    obtain ⟨word, hword⟩ := Option.isSome_iff_exists.mp (List.isSome_head?.mpr hne')
    have hmem : word ∈ Text.capitalWords rest := by
      refine List.mem_of_head? ?_
      rw [← List.head?_append_of_ne_nil _ hne, ← hsame, List.head?_append_of_ne_nil _ hne', hword]
    by_contra hkind
    refine ClauseKind.head_notMem_forms (Ne.symm hkind) _ hkeyword'.spells _ hkeyword.spells word
      hword ?_
    rw [hwords]
    exact List.mem_append_right _ hmem

/-- A text that is read behind a keyword, and before those that begin later. -/
structure Precedes (place : KeywordPlace) (query : List Char) (places : List KeywordPlace)
    (t : List Char) : Prop where
  ne_nil : t ≠ []
  behind : ∀ k ≤ place.stop, IsSection t (query.drop k)
  before : ∀ later ∈ places, place.start < later.start →
    place.stop < later.start ∧ ∀ k, later.start ≤ k → IsSection t (query.take k)

/-- What is read behind the last keyword. -/
theorem precedes_last (hplace : place.StandsIn query) (hne : t ≠ [])
    (ht : IsSection t (place.textTo query query.length)) : place.Precedes query [place] t where
  ne_nil := hne
  behind k hk := by
    rw [textTo_length] at ht
    exact ht.trans (isSection_trim_drop (atDelimiter_of_standsIn hplace) hk)
  before later hlater hlt := by
    rw [List.mem_singleton.mp hlater] at hlt
    exact absurd hlt (Nat.lt_irrefl _)

/-- What is read behind a keyword, up to the next one. -/
theorem precedes_cons {next : KeywordPlace} (hplace : place.StandsIn query)
    (hnext : next.StandsIn query)
    (hsorted : (place :: next :: places).Pairwise fun p q => p.start ≤ q.start) (hne : t ≠ [])
    (ht : IsSection t (place.textTo query next.start)) :
    place.Precedes query (place :: next :: places) t := by
  have hread : place.textTo query next.start ≠ [] := fun hnil => by
    obtain ⟨before, after, heq, -⟩ := ht hne
    rw [hnil] at heq
    exact hne (List.append_eq_nil_iff.mp (List.append_eq_nil_iff.mp heq.symm).2).1
  obtain ⟨front, rest, rfl, hstart, hstop, hdelimiter, htext⟩ :=
    exists_of_textTo hplace hnext hread
  rw [htext] at ht
  have hfront : ∀ k ≤ place.stop, IsSection t (front.drop k) :=
    fun k hk => ht.trans (isSection_trim_drop hdelimiter hk)
  refine ⟨hne, fun k hk => ?_, fun later hlater hlt => ?_⟩
  · rw [List.drop_append_of_le_length (hk.trans hstop)]
    exact (hfront k hk).trans (isSection_append_left edge_space _ rest)
  · have hle : next.start ≤ later.start := by
      obtain ⟨-, hsorted⟩ := List.pairwise_cons.mp hsorted
      rcases List.mem_cons.mp hlater with rfl | hlater
      · exact absurd hlt (Nat.lt_irrefl _)
      · rcases List.mem_cons.mp hlater with rfl | hlater
        · exact Nat.le_refl _
        · exact (List.pairwise_cons.mp hsorted).1 later hlater
    refine ⟨by omega, fun k hk => ?_⟩
    have htake : (front ++ ' ' :: rest).take k =
        front ++ ' ' :: rest.take (k - front.length - 1) := by
      rw [List.take_append, List.take_of_length_le (by omega),
        ← Nat.sub_add_cancel (show 1 ≤ k - front.length by omega), List.take_succ_cons,
        Nat.add_sub_cancel]
    rw [htake]
    exact (hfront 0 (Nat.zero_le _)).trans (isSection_append_left edge_space _ _)

end KeywordPlace

namespace Clauses

variable {clauses clauses' : Clauses}

/-- The text of a clause stands behind its keyword and before the later ones. -/
theorem exists_precedes_of_addAll (hstands : ∀ p ∈ places, p.StandsIn query)
    (hsorted : places.Pairwise fun p q => p.start ≤ q.start)
    (h : addAll query clauses places = .ok clauses') (ht : clauses'.text? kind = some t) :
    clauses.text? kind = some t ∨
      ∃ place ∈ places, place.kind = kind ∧ place.Precedes query places t := by
  induction places generalizing clauses with
  | nil =>
    cases h
    exact .inl ht
  | cons place places ih =>
    obtain ⟨added, hadded, h⟩ := bind_eq_ok_iff.mp h
    obtain ⟨hplace, hlater⟩ := List.forall_mem_cons.mp hstands
    obtain ⟨hfirst, hpairwise⟩ := List.pairwise_cons.mp hsorted
    rcases ih hlater hpairwise h with ht | ⟨p, hp, hkind, hprecedes⟩
    · rcases isSection_of_add hadded ht with ht | ⟨hkind, hsection, hne⟩
      · exact .inl ht
      · refine .inr ⟨place, List.mem_cons_self, hkind, ?_⟩
        cases places with
        | nil => exact KeywordPlace.precedes_last hplace hne hsection
        | cons next places =>
          exact KeywordPlace.precedes_cons hplace (hlater next List.mem_cons_self) hsorted hne
            hsection
    · refine .inr ⟨p, List.mem_cons_of_mem _ hp, hkind, hprecedes.ne_nil, hprecedes.behind, ?_⟩
      refine List.forall_mem_cons.mpr ⟨fun hlt => ?_, hprecedes.before⟩
      exact absurd hlt (Nat.not_lt.mpr (hfirst p hp))

/-- Clauses come from the places of their keywords. -/
theorem exists_places_of_locate (h : locate query = .ok clauses) :
    ∃ places, KeywordPlace.all query = .ok places ∧ addAll query none places = .ok clauses := by
  obtain ⟨places, hplaces, h⟩ := bind_eq_ok_iff.mp h
  refine ⟨places, hplaces, ?_⟩
  dsimp only at h
  split at h
  · cases h
  · obtain ⟨located, hlocated, h⟩ := bind_eq_ok_iff.mp h
    obtain ⟨⟨⟩, -, h⟩ := bind_eq_ok_iff.mp h
    cases h
    exact hlocated

/-- So each of their texts stands behind a keyword. -/
theorem exists_precedes_of_locate (h : locate query = .ok clauses) :
    ∃ places, KeywordPlace.all query = .ok places ∧ ∀ {kind t}, clauses.text? kind = some t →
      ∃ place ∈ places, place.kind = kind ∧ place.Precedes query places t := by
  obtain ⟨places, hplaces, hadded⟩ := exists_places_of_locate h
  refine ⟨places, hplaces, fun {kind t} ht => ?_⟩
  refine (exists_precedes_of_addAll (fun p hp => (KeywordPlace.one?_of_mem_all hplaces hp).2)
    (KeywordPlace.pairwise_of_all hplaces) hadded ht).resolve_left fun hnone => ?_
  cases kind <;> cases hnone

end Clauses
end TableQuery
