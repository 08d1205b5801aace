import Catalogue.Document.Adapter
import Catalogue.Proofs.Ordering.Comparator
import Mathlib.Data.List.Induction

/-!
Sort keys by path. Of the keys of one path the first decides, and a pipeline keeps the place of the
first with the direction of the last.
-/

namespace Catalogue.Sorting

open Document (distinctKeys idPath putKey withTiebreaker)

/-- What sort keys decide, given how two things compare at each path. -/
def byKeys (cmp : String → Ordering) : List (String × Direction) → Ordering
  | [] => .eq
  | k :: rest => (directed k.2 (cmp k.1)).then (byKeys cmp rest)

def firstDirection (keys : List (String × Direction)) (path : String) : Option Direction :=
  (keys.find? fun k => k.1 == path).map Prod.snd

def lastDirection (keys : List (String × Direction)) (path : String) : Option Direction :=
  firstDirection keys.reverse path

/-- The first path of the keys at which two things do not tie. -/
def firstApart (cmp : String → Ordering) (keys : List (String × Direction)) : Option String :=
  (keys.map Prod.fst).find? fun path => cmp path != .eq

section Keys

variable {cmp : String → Ordering} {keys : List (String × Direction)} {path : String}

@[simp] theorem firstDirection_nil (path : String) : firstDirection [] path = none := rfl

theorem firstDirection_cons (k : String × Direction) (keys : List (String × Direction))
    (path : String) :
    firstDirection (k :: keys) path = if k.1 = path then some k.2 else firstDirection keys path := by
  unfold firstDirection
  by_cases h : k.1 = path <;> simp [h]

theorem firstDirection_append (keys rest : List (String × Direction)) (path : String) :
    firstDirection (keys ++ rest) path =
      (firstDirection keys path).or (firstDirection rest path) := by
  unfold firstDirection
  rw [List.find?_append, Option.map_or]

theorem lastDirection_append_singleton (keys : List (String × Direction))
    (k : String × Direction) (path : String) :
    lastDirection (keys ++ [k]) path = if k.1 = path then some k.2 else lastDirection keys path := by
  unfold lastDirection
  rw [List.reverse_append, List.reverse_singleton, List.singleton_append, firstDirection_cons]

theorem isSome_firstDirection_iff :
    (firstDirection keys path).isSome = true ↔ path ∈ keys.map Prod.fst := by
  unfold firstDirection
  simp

theorem isSome_lastDirection_iff :
    (lastDirection keys path).isSome = true ↔ path ∈ keys.map Prod.fst := by
  unfold lastDirection
  rw [isSome_firstDirection_iff, List.map_reverse, List.mem_reverse]

theorem firstApart_cons (k : String × Direction) :
    firstApart cmp (k :: keys) = if cmp k.1 = .eq then firstApart cmp keys else some k.1 := by
  unfold firstApart
  by_cases h : cmp k.1 = .eq <;> simp [h]

theorem firstApart_append (rest : List (String × Direction)) :
    firstApart cmp (keys ++ rest) = (firstApart cmp keys).or (firstApart cmp rest) := by
  unfold firstApart
  rw [List.map_append, List.find?_append]

theorem ne_eq_of_firstApart (h : firstApart cmp keys = some path) : cmp path ≠ .eq := by
  simpa using List.find?_some h

theorem mem_of_firstApart (h : firstApart cmp keys = some path) : path ∈ keys.map Prod.fst :=
  List.mem_of_find?_eq_some h

/-- The first key decides at the first path where two things do not tie. -/
theorem byKeys_eq (cmp : String → Ordering) (keys : List (String × Direction)) :
    byKeys cmp keys = (firstApart cmp keys).elim .eq fun path =>
      directed ((firstDirection keys path).getD .ascending) (cmp path) := by
  induction keys with
  | nil => rfl
  | cons k rest ih =>
      rw [byKeys, firstApart_cons]
      by_cases htie : cmp k.1 = .eq
      · rw [if_pos htie, directed_eq_eq_iff.mpr htie, Ordering.then, ih]
        cases hfind : firstApart cmp rest with
        | none => rfl
        | some path =>
            have hne : k.1 ≠ path := by
              intro h
              exact ne_eq_of_firstApart hfind (h ▸ htie)
            rw [Option.elim_some, Option.elim_some, firstDirection_cons, if_neg hne]
      · rw [if_neg htie, Option.elim_some, firstDirection_cons, if_pos rfl, Option.getD_some]
        have hapart : directed k.2 (cmp k.1) ≠ .eq := mt directed_eq_eq_iff.mp htie
        cases hd : directed k.2 (cmp k.1) with
        | eq => exact absurd hd hapart
        | _ => rfl

theorem byKeys_of_tie (h : ∀ k ∈ keys, cmp k.1 = .eq) : byKeys cmp keys = .eq := by
  induction keys with
  | nil => rfl
  | cons k rest ih =>
      rw [byKeys, directed_eq_eq_iff.mpr (h k (.head _)), Ordering.then]
      exact ih fun k hk => h k (.tail _ hk)

end Keys

section Distinct

variable {keys : List (String × Direction)}

theorem map_fst_putKey (keys : List (String × Direction)) (path : String) (d : Direction) :
    (putKey keys path d).map Prod.fst =
      if path ∈ keys.map Prod.fst then keys.map Prod.fst else keys.map Prod.fst ++ [path] := by
  have hany : keys.any (·.1 == path) = true ↔ path ∈ keys.map Prod.fst := by simp
  unfold putKey
  by_cases h : path ∈ keys.map Prod.fst
  · rw [if_pos (hany.mpr h), if_pos h, List.map_map]
    apply List.map_congr_left
    intro k _
    by_cases hp : k.1 = path <;> simp [hp]
  · rw [if_neg (mt hany.mp h), if_neg h, List.map_append, List.map_singleton]

theorem firstDirection_putKey (keys : List (String × Direction)) (path : String) (d : Direction)
    (q : String) :
    firstDirection (putKey keys path d) q = if path = q then some d else firstDirection keys q := by
  have hkept : ∀ {keys : List (String × Direction)}, path ≠ q →
      firstDirection (keys.map fun k => if k.1 == path then (path, d) else k) q =
        firstDirection keys q := by
    intro keys hne
    induction keys with
    | nil => rfl
    | cons k rest ih =>
        rw [List.map_cons, firstDirection_cons, firstDirection_cons, ih]
        by_cases hk : k.1 = path <;> simp [hk, hne]
  have hnew : ∀ {keys : List (String × Direction)}, keys.any (·.1 == path) = true →
      firstDirection (keys.map fun k => if k.1 == path then (path, d) else k) path = some d := by
    intro keys hany
    induction keys with
    | nil => cases hany
    | cons k rest ih =>
        rw [List.map_cons, firstDirection_cons]
        by_cases hk : k.1 = path
        · simp [hk]
        · have hkeep : (if k.1 == path then (path, d) else k) = k := by simp [hk]
          rw [hkeep, if_neg hk]
          exact ih (by simpa [hk] using hany)
  unfold putKey
  split
  · rename_i hany
    by_cases hq : path = q
    · rw [if_pos hq, ← hq, hnew hany]
    · rw [if_neg hq, hkept hq]
  · rename_i hany
    rw [firstDirection_append, firstDirection_cons, firstDirection_nil]
    by_cases hq : path = q
    · have hnone : firstDirection keys q = none := by
        rw [← Option.not_isSome_iff_eq_none, isSome_firstDirection_iff, ← hq]
        simpa using hany
      rw [hnone, Option.none_or]
    · rw [if_neg hq, Option.or_none, if_neg hq]

theorem distinctKeys_append_singleton (keys : List (String × Direction)) (k : String × Direction) :
    distinctKeys (keys ++ [k]) = putKey (distinctKeys keys) k.1 k.2 := by
  unfold distinctKeys
  rw [List.foldl_append]
  rfl

theorem mem_fst_distinctKeys (keys : List (String × Direction)) (path : String) :
    path ∈ (distinctKeys keys).map Prod.fst ↔ path ∈ keys.map Prod.fst := by
  induction keys using List.reverseRecOn with
  | nil => rfl
  | append_singleton keys k ih =>
      rw [distinctKeys_append_singleton, map_fst_putKey, List.map_append, List.mem_append, ← ih]
      split
      · rename_i h
        refine ⟨.inl, ?_⟩
        rintro (hpath | hlast)
        · exact hpath
        · rw [List.mem_singleton.mp hlast]
          exact h
      · simp

theorem mem_of_mem_putKey {keys : List (String × Direction)} {path : String} {d : Direction}
    {k : String × Direction} (h : k ∈ putKey keys path d) : k ∈ keys ∨ k = (path, d) := by
  unfold putKey at h
  split at h
  · obtain ⟨k', hk', rfl⟩ := List.mem_map.mp h
    split
    · exact .inr rfl
    · exact .inl hk'
  · exact (List.mem_append.mp h).imp_right List.mem_singleton.mp

theorem mem_of_mem_distinctKeys {keys : List (String × Direction)} {k : String × Direction}
    (h : k ∈ distinctKeys keys) : k ∈ keys := by
  induction keys using List.reverseRecOn with
  | nil => cases h
  | append_singleton keys last ih =>
      rw [distinctKeys_append_singleton] at h
      rw [List.mem_append, List.mem_singleton]
      exact (mem_of_mem_putKey h).imp_left ih

theorem firstDirection_distinctKeys (keys : List (String × Direction)) (path : String) :
    firstDirection (distinctKeys keys) path = lastDirection keys path := by
  induction keys using List.reverseRecOn with
  | nil => rfl
  | append_singleton keys k ih =>
      rw [distinctKeys_append_singleton, firstDirection_putKey, lastDirection_append_singleton, ih]

theorem firstApart_distinctKeys (cmp : String → Ordering) (keys : List (String × Direction)) :
    firstApart cmp (distinctKeys keys) = firstApart cmp keys := by
  induction keys using List.reverseRecOn with
  | nil => rfl
  | append_singleton keys k ih =>
      rw [distinctKeys_append_singleton]
      unfold firstApart at ih ⊢
      rw [map_fst_putKey, List.map_append]
      split
      · rename_i h
        -- A path that stands already is met there, or ties.
        rw [ih, List.find?_append]
        cases hfind : (keys.map Prod.fst).find? fun path => cmp path != .eq with
        | some path => rfl
        | none =>
            have htie := List.find?_eq_none.mp hfind k.1 ((mem_fst_distinctKeys keys k.1).mp h)
            simpa using htie
      · rw [List.find?_append, List.find?_append, ih]
        rfl

end Distinct

section Tiebreaker

variable {cmp : String → Ordering} {keys : List (String × Direction)} {path : String}

theorem firstApart_idPath (apart : cmp idPath ≠ .eq) :
    firstApart cmp [(idPath, .ascending)] = some idPath := by
  rw [firstApart_cons, if_neg apart]

theorem idPath_not_mem (apart : cmp idPath ≠ .eq) (h : firstApart cmp keys = none) :
    idPath ∉ keys.map Prod.fst := by
  intro hmem
  have htie := List.find?_eq_none.mp h idPath hmem
  exact apart (by simpa using htie)

/-- With the identifier at the end, the first key of a path decides. -/
theorem byKeys_append_id (keys : List (String × Direction)) (apart : cmp idPath ≠ .eq) :
    byKeys cmp (keys ++ [(idPath, .ascending)]) =
      (firstApart cmp keys).elim (cmp idPath) fun path =>
        directed ((firstDirection keys path).getD .ascending) (cmp path) := by
  rw [byKeys_eq, firstApart_append, firstApart_idPath apart]
  cases hfind : firstApart cmp keys with
  | none =>
      have hnone : firstDirection keys idPath = none := by
        rw [← Option.not_isSome_iff_eq_none, isSome_firstDirection_iff]
        exact idPath_not_mem apart hfind
      rw [Option.none_or, Option.elim_some, firstDirection_append, hnone, Option.none_or,
        firstDirection_cons, if_pos rfl]
      rfl
  | some path =>
      obtain ⟨d, hd⟩ := Option.isSome_iff_exists.mp
        (isSome_firstDirection_iff.mpr (mem_of_firstApart hfind))
      rw [Option.some_or, Option.elim_some, Option.elim_some, firstDirection_append, hd,
        Option.some_or]

/-- In a pipeline the last key of a path decides. -/
theorem byKeys_distinctKeys (keys : List (String × Direction)) (apart : cmp idPath ≠ .eq) :
    byKeys cmp (distinctKeys (withTiebreaker keys)) =
      (firstApart cmp keys).elim (cmp idPath) fun path =>
        directed ((lastDirection keys path).getD .ascending) (cmp path) := by
  have hany : keys.any (·.1 == idPath) = true ↔ idPath ∈ keys.map Prod.fst := by simp
  rw [byKeys_eq, firstApart_distinctKeys]
  simp only [firstDirection_distinctKeys]
  unfold withTiebreaker
  by_cases hid : idPath ∈ keys.map Prod.fst
  · rw [if_pos (hany.mpr hid)]
    cases hfind : firstApart cmp keys with
    | none => exact absurd hid (idPath_not_mem apart hfind)
    | some path => rfl
  · rw [if_neg (mt hany.mp hid), firstApart_append, firstApart_idPath apart]
    cases hfind : firstApart cmp keys with
    | none =>
        rw [Option.none_or, Option.elim_some, lastDirection_append_singleton, if_pos rfl]
        rfl
    | some path =>
        have hne : idPath ≠ path := by
          intro h
          exact hid (h ▸ mem_of_firstApart hfind)
        rw [Option.some_or, Option.elim_some, Option.elim_some, lastDirection_append_singleton,
          if_neg hne]

/-- The paths that may decide: those before the first key of the identifier, and the identifier. -/
def decisivePaths (keys : List (String × Direction)) : List String :=
  (keys.map Prod.fst).takeWhile (· != idPath) ++ [idPath]

theorem decisivePaths_cons (k : String × Direction) (keys : List (String × Direction)) :
    decisivePaths (k :: keys) =
      if k.1 = idPath then [idPath] else k.1 :: decisivePaths keys := by
  unfold decisivePaths
  by_cases h : k.1 = idPath <;> simp [h]

theorem mem_decisivePaths (apart : cmp idPath ≠ .eq) (h : firstApart cmp keys = some path) :
    path ∈ decisivePaths keys := by
  induction keys with
  | nil => cases h
  | cons k rest ih =>
      rw [firstApart_cons] at h
      rw [decisivePaths_cons]
      by_cases htie : cmp k.1 = .eq
      · have hid : k.1 ≠ idPath := by
          intro hid
          exact apart (hid ▸ htie)
        rw [if_pos htie] at h
        rw [if_neg hid]
        exact .tail _ (ih h)
      · rw [if_neg htie] at h
        obtain rfl := Option.some.inj h
        split
        · rename_i hid
          rw [hid]
          exact .head _
        · exact .head _

/-- A path that may decide does so where all others but the identifier tie. -/
theorem firstApart_of_decisive (hpath : path ∈ decisivePaths keys)
    (hmem : path ∈ keys.map Prod.fst)
    (apart : ∀ q ∈ keys.map Prod.fst, cmp q ≠ .eq ↔ q = path ∨ q = idPath) :
    firstApart cmp keys = some path := by
  induction keys with
  | nil => cases hmem
  | cons k rest ih =>
      rw [decisivePaths_cons] at hpath
      rw [firstApart_cons]
      have hk := apart k.1 (.head _)
      by_cases hid : k.1 = idPath
      · rw [if_pos hid] at hpath
        rw [if_neg (hk.mpr (.inr hid)), hid, List.mem_singleton.mp hpath]
      · rw [if_neg hid] at hpath
        by_cases hown : k.1 = path
        · rw [if_neg (hk.mpr (.inl hown)), hown]
        · have htie : cmp k.1 = .eq := by
            by_contra hne
            exact (hk.mp hne).elim hown hid
          rw [if_pos htie]
          rw [List.map_cons] at hmem
          have hrest := List.mem_of_ne_of_mem (Ne.symm hown) hpath
          exact ih hrest (List.mem_of_ne_of_mem (Ne.symm hown) hmem)
            fun q hq => apart q (.tail _ hq)

end Tiebreaker

end Catalogue.Sorting
