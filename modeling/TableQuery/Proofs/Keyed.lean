import Mathlib.Data.List.Nodup
import TableQuery.Keyed
import TableQuery.Proofs.Value.Hash

/-!
# Searching for keys

What the search for a key in a table comes to, however tables are searched.  Where the keys
hold no doubles, a table finds its entries by equality of keys: changing the entry for one
key changes no other entry, and a table that is filled step by step keeps the order in which
its keys were first used.  Where equal keys are those that are hashed alike, all ways of
searching come to the same.
-/

namespace TableQuery
namespace Keyed

open Value

variable {α : Type}

@[simp] theorem keys_nil : keys ([] : Keyed α) = [] :=
  rfl

@[simp] theorem keys_cons (entry : List Value × α) (table : Keyed α) :
    keys (entry :: table) = entry.1 :: table.keys :=
  rfl

@[simp] theorem keys_append (table table' : Keyed α) :
    keys (table ++ table') = table.keys ++ keys table' :=
  List.map_append

section Search

variable [Hashing] {key : List Value} {table : Keyed α}

/-- What the search for a key comes to. -/
inductive Searched (key : List Value) (table : Keyed α) : Prop where
  /-- There is no entry whose key is equal and hashed alike, and no other one is found. -/
  | missed (habsent : ∀ k ∈ table.keys, sameList k key → hashedAll k ≠ hashedAll key)
    (hfind : table.find? key = none)
    (halter : ∀ change, table.alter key change = table ++ [(key, change none)])
  /-- An entry with an equal key is found. -/
  | found {before : Keyed α} {k : List Value} {entry : α} {after : Keyed α}
    (htable : table = before ++ (k, entry) :: after) (hsame : sameList k key)
    (hfind : table.find? key = some entry)
    (halter : ∀ change,
      table.alter key change = before ++ (k, change (some entry)) :: after)

theorem searched (key : List Value) (table : Keyed α) : Searched key table := by
  cases hplace : Hashing.locate table.keys key with
  | none =>
    refine .missed ?_ (by simp [find?, hplace]) fun change => by rw [alter, hplace]
    intro k hk hsame hhashed
    have hsome := Hashing.isSome_locate hk hsame hhashed
    rw [hplace] at hsome
    cases hsome
  | some place =>
    obtain ⟨k, hk, hsame⟩ := Hashing.exists_same hplace
    rw [keys, List.getElem?_map, Option.map_eq_some_iff] at hk
    obtain ⟨⟨k, entry⟩, hentry, rfl⟩ := hk
    obtain ⟨hlt, hget⟩ := List.getElem?_eq_some_iff.mp hentry
    have hfind : table.find? key = some entry := by simp [find?, hplace, hentry]
    have hsplit : table = table.take place ++ (k, entry) :: table.drop (place + 1) := by
      rw [← hget, ← List.drop_eq_getElem_cons, List.take_append_drop]
    refine .found hsplit hsame hfind fun change => ?_
    rw [alter, hplace]
    dsimp only
    rw [List.modify_eq_take_cons_drop hlt, hget]

@[simp] theorem find?_nil (key : List Value) : find? key ([] : Keyed α) = none := by
  cases searched key ([] : Keyed α) with
  | missed _ hfind => exact hfind
  | found htable => simp at htable

theorem exists_mem_of_find? {entry : α} (h : table.find? key = some entry) :
    ∃ k, (k, entry) ∈ table := by
  cases searched key table with
  | missed _ hfind => rw [hfind] at h; cases h
  | @found _ k _ _ htable _ hfind =>
    rw [hfind] at h
    cases h
    exact ⟨k, by simp [htable]⟩

/-- What holds of all entries and of a changed one under its key or a key of its own holds
when one has been changed. -/
theorem forall_mem_alter {P : List Value × α → Prop} (change : Option α → α)
    (hnew : P (key, change none))
    (hold : ∀ k entry, P (k, entry) → P (k, change (some entry)))
    (h : ∀ entry ∈ table, P entry) : ∀ entry ∈ table.alter key change, P entry := by
  cases searched key table with
  | missed _ _ halter =>
    rw [halter]
    exact List.forall_mem_append.mpr ⟨h, List.forall_mem_singleton.mpr hnew⟩
  | found htable _ _ halter =>
    rw [htable, List.forall_mem_append, List.forall_mem_cons] at h
    rw [halter, List.forall_mem_append, List.forall_mem_cons]
    exact ⟨h.1, hold _ _ h.2.1, h.2.2⟩

end Search

/-! ## Tables whose keys hold no doubles -/

/-- A table whose keys hold no doubles, each of which has one entry. -/
structure Lawful (table : Keyed α) : Prop where
  floatFree : ∀ key ∈ table.keys, areFloatFree key
  nodup : table.keys.Nodup

theorem lawful_nil : Lawful ([] : Keyed α) :=
  ⟨by simp, by simp⟩

theorem Lawful.perm {table table' : Keyed α} (h : table.Lawful) (hperm : table'.Perm table) :
    table'.Lawful where
  floatFree key hkey := h.floatFree key ((hperm.map Prod.fst).mem_iff.mp hkey)
  nodup := (hperm.map Prod.fst).nodup_iff.mpr h.nodup

section Lawful

variable [Hashing] {key : List Value} {table : Keyed α}

/-- Without doubles, an entry is found exactly if there is one for the key itself. -/
theorem Lawful.searched (htable : table.Lawful) (hkey : areFloatFree key) :
    (key ∉ table.keys ∧ table.find? key = none ∧
      ∀ change, table.alter key change = table ++ [(key, change none)]) ∨
    ∃ before entry after, table = before ++ (key, entry) :: after ∧
      table.find? key = some entry ∧
      ∀ change, table.alter key change = before ++ (key, change (some entry)) :: after := by
  cases Keyed.searched key table with
  | missed habsent hfind halter =>
    refine .inl ⟨fun hmem => ?_, hfind, halter⟩
    exact habsent key hmem ((sameList_iff hkey hkey).mpr rfl) rfl
  | @found before k entry after hsplit hsame hfind halter =>
    have hk : k ∈ table.keys := by simp [hsplit]
    obtain rfl := (sameList_iff (htable.floatFree k hk) hkey).mp hsame
    exact .inr ⟨before, entry, after, hsplit, hfind, halter⟩

/-- A key has an entry exactly if it is one of the keys. -/
theorem isSome_find?_iff (htable : table.Lawful) (hkey : areFloatFree key) :
    (table.find? key).isSome = true ↔ key ∈ table.keys := by
  obtain ⟨hmem, hfind, -⟩ | ⟨before, entry, after, rfl, hfind, -⟩ := htable.searched hkey
  · simp [hfind, hmem]
  · simp [hfind]

theorem find?_eq_none (htable : table.Lawful) (hkey : areFloatFree key)
    (hmem : key ∉ table.keys) : table.find? key = none := by
  rw [← isSome_find?_iff htable hkey] at hmem
  simpa using hmem

/-- An entry of a table is found by its key. -/
theorem find?_of_mem {entry : α} (htable : table.Lawful) (hmem : (key, entry) ∈ table) :
    table.find? key = some entry := by
  have hkeys : key ∈ table.keys := List.mem_map_of_mem hmem
  obtain ⟨habsent, -⟩ | ⟨before, other, after, hsplit, hfind, -⟩ :=
    htable.searched (htable.floatFree key hkeys)
  · exact absurd hkeys habsent
  · have hother : (key, other) ∈ table := by simp [hsplit]
    obtain ⟨-, rfl⟩ := Prod.mk.inj
      (List.inj_on_of_nodup_map htable.nodup hmem hother rfl)
    exact hfind

/-- A new key stands behind the others, and an old one stays where it is. -/
theorem keys_alter (htable : table.Lawful) (hkey : areFloatFree key)
    (change : Option α → α) :
    keys (table.alter key change) =
      if key ∈ table.keys then table.keys else table.keys ++ [key] := by
  obtain ⟨hmem, -, halter⟩ | ⟨before, entry, after, rfl, -, halter⟩ := htable.searched hkey
  · simp [halter, hmem]
  · simp [halter]

theorem Lawful.alter (htable : table.Lawful) (hkey : areFloatFree key)
    (change : Option α → α) : Lawful (table.alter key change) := by
  by_cases hmem : key ∈ table.keys
  · constructor <;> rw [keys_alter htable hkey, if_pos hmem]
    · exact htable.floatFree
    · exact htable.nodup
  · constructor <;> rw [keys_alter htable hkey, if_neg hmem]
    · simpa [or_imp, forall_and] using ⟨htable.floatFree, hkey⟩
    · exact List.nodup_append.mpr ⟨htable.nodup, by simp, by
        rintro k hk _ hk' rfl
        exact hmem (by simp_all)⟩

/-- The entry that has been changed. -/
theorem find?_alter_self (htable : table.Lawful) (hkey : areFloatFree key)
    (change : Option α → α) :
    find? key (table.alter key change) = some (change (table.find? key)) := by
  apply find?_of_mem (htable.alter hkey change)
  obtain ⟨-, hfind, halter⟩ | ⟨before, entry, after, -, hfind, halter⟩ := htable.searched hkey
  · simp [hfind, halter]
  · simp [hfind, halter]

/-- All other entries stay as they are. -/
theorem find?_alter_of_ne {other : List Value} (htable : table.Lawful)
    (hkey : areFloatFree key) (hother : areFloatFree other) (hne : key ≠ other)
    (change : Option α → α) : find? other (table.alter key change) = table.find? other := by
  obtain ⟨hmem, hfind, -⟩ | ⟨before, entry, after, hsplit, hfind, -⟩ := htable.searched hother
  · rw [hfind]
    apply find?_eq_none (htable.alter hkey change) hother
    rw [keys_alter htable hkey]
    split <;> simp [hmem, hne.symm]
  · rw [hfind]
    apply find?_of_mem (htable.alter hkey change)
    have hentry : (other, entry) ∈ table := by simp [hsplit]
    obtain ⟨-, -, halter⟩ | ⟨before', entry', after', hsplit', -, halter⟩ := htable.searched hkey
    · simp [halter, hentry]
    · rw [hsplit'] at hentry
      simpa [halter, hne.symm] using hentry

end Lawful

/-! ## Tables in which all searches agree -/

/-- Keys of which equal ones are hashed alike. -/
def Coherent (K : List Value → Prop) : Prop :=
  ∀ k key, K k → K key → sameList k key = true → hashedAll k = hashedAll key

/-- Such keys are equal exactly if they are hashed alike. -/
theorem Coherent.same_iff {K : List Value → Prop} (hK : Coherent K) {k key : List Value}
    (hk : K k) (hkey : K key) : sameList k key = true ↔ hashedAll k = hashedAll key := by
  refine ⟨hK k key hk hkey, fun h => ?_⟩
  rw [sameList, cmpList_eq_of_hashedAll_eq h]
  rfl

/-- Keys without doubles are equal only if they are the same. -/
theorem coherent_of_areFloatFree {K : List Value → Prop} (h : ∀ key, K key → areFloatFree key) :
    Coherent K := by
  intro k key hk hkey hsame
  rw [(sameList_iff (h k hk) (h key hkey)).mp hsame]

/-- A table with one entry for each of its keys, which are among the given ones. -/
structure Among (K : List Value → Prop) (table : Keyed α) : Prop where
  mem : ∀ key ∈ table.keys, K key
  nodup : (table.keys.map hashedAll).Nodup

theorem among_nil {K : List Value → Prop} : Among K ([] : Keyed α) :=
  ⟨by simp, by simp⟩

section Among

variable {K : List Value → Prop} {key : List Value} {table : Keyed α}

/-- The search ends at the key that is hashed alike. -/
theorem Among.locate_eq_some_iff [Hashing] (hK : Coherent K) (htable : table.Among K)
    (hkey : K key) {place : Nat} :
    Hashing.locate table.keys key = some place ↔
      (table.keys.map hashedAll)[place]? = some (hashedAll key) := by
  have hforward : ∀ {place}, Hashing.locate table.keys key = some place →
      (table.keys.map hashedAll)[place]? = some (hashedAll key) := by
    intro place hplace
    obtain ⟨k, hk, hsame⟩ := Hashing.exists_same hplace
    have hmem := htable.mem k (List.mem_of_getElem? hk)
    rw [List.getElem?_map, hk, Option.map_some, hK k key hmem hkey hsame]
  refine ⟨hforward, fun h => ?_⟩
  obtain ⟨k, hk, hhashed⟩ := List.mem_map.mp (List.mem_of_getElem? h)
  have hsame := (hK.same_iff (htable.mem k hk) hkey).mpr hhashed
  obtain ⟨other, hother⟩ :=
    Option.isSome_iff_exists.mp (Hashing.isSome_locate hk hsame hhashed)
  obtain ⟨hlt, -⟩ := List.getElem?_eq_some_iff.mp h
  rw [hother, (List.getElem?_inj hlt htable.nodup).mp (h.trans (hforward hother).symm)]

/-- All ways of searching come to the same. -/
theorem Among.locate_eq (first second : Hashing) (hK : Coherent K) (htable : table.Among K)
    (hkey : K key) : first.locate table.keys key = second.locate table.keys key := by
  ext place
  exact (@locate_eq_some_iff _ _ _ _ first hK htable hkey place).trans
    (@locate_eq_some_iff _ _ _ _ second hK htable hkey place).symm

theorem Among.find?_agrees (first second : Hashing) (hK : Coherent K) (htable : table.Among K)
    (hkey : K key) : @find? _ first key table = @find? _ second key table := by
  unfold find?
  rw [htable.locate_eq first second hK hkey]

theorem Among.alter_agrees (first second : Hashing) (hK : Coherent K) (htable : table.Among K)
    (hkey : K key) (change : Option α → α) :
    @Keyed.alter _ first key change table = @Keyed.alter _ second key change table := by
  unfold Keyed.alter
  rw [htable.locate_eq first second hK hkey]

theorem Among.alter [Hashing] (hK : Coherent K) (htable : table.Among K) (hkey : K key)
    (change : Option α → α) : Among K (table.alter key change) := by
  cases searched key table with
  | missed habsent _ halter =>
    rw [halter]
    constructor
    · simpa [or_imp, forall_and] using ⟨htable.mem, hkey⟩
    · rw [keys_append, List.map_append]
      refine List.nodup_append.mpr ⟨htable.nodup, List.nodup_singleton _, ?_⟩
      rintro a ha b hb rfl
      obtain ⟨k, hk, rfl⟩ := List.mem_map.mp ha
      have hhashed : hashedAll k = hashedAll key := List.mem_singleton.mp hb
      exact habsent k hk ((hK.same_iff (htable.mem k hk) hkey).mpr hhashed) hhashed
  | found hsplit _ _ halter =>
    have hkeys : keys (table.alter key change) = table.keys := by rw [halter]; simp [hsplit]
    exact ⟨hkeys ▸ htable.mem, hkeys ▸ htable.nodup⟩

end Among
end Keyed
end TableQuery
