import Catalogue.Proofs.Failing
import Catalogue.Proofs.Json.Reader
import Catalogue.Query.Order
import Mathlib.Data.List.Forall2

/-!
How orders compile: entry by entry, in the order of the entries. An order with a malformed entry is
refused as a whole, and of the other orders an entry says a directive or nothing.
-/

namespace Catalogue

namespace Direction

def word : Direction → String
  | .ascending => "asc"
  | .descending => "desc"

/-- The text says the direction: its word in letters of either case, with any blanks around it. -/
def Says (direction : Direction) (s : String) : Prop :=
  ∃ left body right, s.toList = left ++ body ++ right ∧ (∀ c ∈ left, Text.isBlank c = true) ∧
    (∀ c ∈ right, Text.isBlank c = true) ∧ body.map Char.toLower = direction.word.toList

theorem isTrimmed_of_word {direction : Direction} {body : List Char}
    (h : body.map Char.toLower = direction.word.toList) : Text.IsTrimmed Text.isBlank body := by
  have hblank : ∀ c : Char, Text.isBlank c = true → c.toLower = c := by
    intro c hc
    unfold Char.toLower
    split
    · rename_i hupper
      have hlow : 65 ≤ c.toNat := hupper.1
      have hhigh : c.toNat ≤ 90 := hupper.2
      simp only [Text.isBlank, Text.isWhite, Bool.or_eq_true, Bool.and_eq_true, decide_eq_true_eq,
        beq_iff_eq] at hc
      omega
    · rfl
  have hends : ∀ c ∈ direction.word.toList, Text.isBlank c = false := by
    cases direction <;> exact forall_mem_of_all (by decide)
  have hbody : ∀ c ∈ body, Text.isBlank c = false := by
    intro c hc
    by_contra hcontra
    have hlower := hblank c (by simpa using hcontra)
    have hmem : c.toLower ∈ direction.word.toList := h ▸ List.mem_map_of_mem hc
    rw [hlower] at hmem
    exact hcontra (hends c hmem)
  exact ⟨fun c hc => hbody c (List.mem_of_mem_head? hc),
    fun c hc => hbody c (List.mem_of_getLast? hc)⟩

theorem ofValue?_text (s : String) :
    ofValue? (.text s) =
      if (Text.trimBy Text.isBlank s.toList).map Char.toLower = "asc".toList then some .ascending
      else if (Text.trimBy Text.isBlank s.toList).map Char.toLower = "desc".toList then
        some .descending
      else none := by
  have hword : ∀ (body : List Char) (t : String), (String.ofList body == t) = true ↔
      body = t.toList := by
    intro body t
    rw [beq_iff_eq, ← String.toList_inj, String.toList_ofList]
  simp only [ofValue?, hword]

theorem ofValue?_eq_some_iff {v : Value} {direction : Direction} :
    ofValue? v = some direction ↔ ∃ s, v = .text s ∧ direction.Says s := by
  constructor
  · intro h
    cases v with
    | text s =>
        obtain ⟨left, right, hs, hleft, hright⟩ := Text.exists_trimBy Text.isBlank s.toList
        refine ⟨s, rfl, left, _, right, hs, hleft, hright, ?_⟩
        rw [ofValue?_text] at h
        split at h
        · rename_i hword
          cases h
          exact hword
        · split at h
          · rename_i hword
            cases h
            exact hword
          · cases h
    | _ => cases h
  · rintro ⟨s, rfl, left, body, right, hs, hleft, hright, hword⟩
    have hbody : Text.trimBy Text.isBlank s.toList = body := by
      rw [hs, Text.trimBy_append hleft hright, (isTrimmed_of_word hword).trimBy_eq]
    rw [ofValue?_text, hbody, hword]
    cases direction <;> decide

end Direction

namespace Order

variable {registry : Registry} {seedLength : Int}

/-- The item is an object with a single entry, whose key is written as the field. -/
def IsEntry (item : Value) (e : String × Value) : Prop :=
  ∃ k : Value, item = .object [(k, e.2)] ∧ k.text? = some e.1

/-- The item is anything but an object with a single entry. -/
def IsMalformed (item : Value) : Prop :=
  ∀ k v, item ≠ .object [(k, v)]

/-- Single entries have keys that can be written: texts, or any but too long a number. -/
def HasKeys (items : List Value) : Prop :=
  ∀ k v, Value.object [(k, v)] ∈ items → ∃ s, k.text? = some s

/-- The values for a random order can be written, if only as nothing. -/
def HasSeeds (seedLength : Int) (es : List (String × Value)) : Prop :=
  ∀ e ∈ es, e.1 = randomField → ∃ s, seed e.2 seedLength = .ok s

/-- What an entry asks for: the order by a declared field, where its value says a direction, or a
random order, where its value leaves a seed. -/
inductive Asks (registry : Registry) (seedLength : Int) : String × Value → SortDirective → Prop
  | column {field s : String} {direction : Direction} (other : field ≠ randomField)
      (declared : field ∈ registry.names) (said : direction.Says s) :
      Asks registry seedLength (field, .text s) { field, direction }
  | random {v : Value} {s : String} (left : seed v seedLength = .ok s) (nonempty : s ≠ "") :
      Asks registry seedLength (randomField, v)
        { field := randomField, direction := .descending, seed := some s }

/-- The directives of those entries that ask for one, in the order of the entries. -/
inductive Picks (registry : Registry) (seedLength : Int) :
    List (String × Value) → List SortDirective → Prop
  | nil : Picks registry seedLength [] []
  | asking {e : String × Value} {es : List (String × Value)} {d : SortDirective}
      {ds : List SortDirective} (h : Asks registry seedLength e d)
      (rest : Picks registry seedLength es ds) : Picks registry seedLength (e :: es) (d :: ds)
  | passing {e : String × Value} {es : List (String × Value)} {ds : List SortDirective}
      (h : ∀ d, ¬Asks registry seedLength e d) (rest : Picks registry seedLength es ds) :
      Picks registry seedLength (e :: es) ds

section Entries

@[simp] theorem entries_object (es : Entries) : entries (.object es) = entriesOf es := by
  cases es <;> rfl

@[simp] theorem entries_list (items : List Value) :
    entries (.list items) = entriesOfItems items := by
  cases items <;> rfl

/-- An object has the entries of its parts. -/
theorem entriesOf_eq_entriesOfItems (es : Entries) :
    entriesOf es = entriesOfItems (es.map fun e => .object [e]) := by
  induction es with
  | nil => rfl
  | cons e rest ih => rw [List.map_cons, entriesOf, entriesOfItems, ih]

theorem keyText_eq_ok_iff {k : Value} {s : String} : keyText k = .ok s ↔ k.text? = some s := by
  unfold keyText
  cases k.text? <;> simp

theorem entriesOfItems_eq_ok_iff {items : List Value} {es : List (String × Value)} :
    entriesOfItems items = .ok es ↔ List.Forall₂ IsEntry items es := by
  induction items generalizing es with
  | nil =>
      rw [List.forall₂_nil_left_iff, entriesOfItems, Except.ok.injEq]
      exact eq_comm
  | cons item rest ih =>
      constructor
      · intro h
        unfold entriesOfItems at h
        split at h
        · rename_i heq
          cases heq
        · rename_i heq
          cases heq
          obtain ⟨field, hfield, h⟩ := Outcome.bind_eq_ok_iff.mp h
          obtain ⟨others, hothers, h⟩ := Outcome.bind_eq_ok_iff.mp h
          cases h
          exact .cons ⟨_, rfl, keyText_eq_ok_iff.mp hfield⟩ (ih.mp hothers)
        · cases h
      · intro h
        cases h with
        | @cons _ e _ es hentry hrest =>
            obtain ⟨k, rfl, hk⟩ := hentry
            refine Outcome.bind_eq_ok_iff.mpr ⟨e.1, keyText_eq_ok_iff.mpr hk, ?_⟩
            exact Outcome.bind_eq_ok_iff.mpr ⟨es, ih.mpr hrest, rfl⟩

theorem exists_item_of_mem {items : List Value} {es : List (String × Value)} {e : String × Value}
    (h : List.Forall₂ IsEntry items es) (he : e ∈ es) : ∃ k, Value.object [(k, e.2)] ∈ items := by
  induction h with
  | nil => cases he
  | cons hentry _ ih =>
      rcases List.mem_cons.mp he with rfl | he
      · obtain ⟨k, rfl, -⟩ := hentry
        exact ⟨k, .head _⟩
      · obtain ⟨k, hk⟩ := ih he
        exact ⟨k, .tail _ hk⟩

/-- Items have no entries for one of two reasons: one is malformed, or a key cannot be written. -/
theorem failsAs_entriesOfItems (items : List Value) :
    FailsAs (fun e => (e = refusal ∧ ∃ item ∈ items, IsMalformed item) ∨
      (e = .fault .badValue ∧ ¬HasKeys items)) (entriesOfItems items) := by
  induction items with
  | nil => exact .ok _
  | cons item rest ih =>
      unfold entriesOfItems
      split
      · exact .ok _
      · rename_i k v others heq
        cases heq
        refine .bind ?_ fun _ _ => .bind (ih.mono ?_) fun _ _ => .ok _
        · unfold keyText
          cases hk : k.text? with
          | some s => exact .ok s
          | none =>
              refine .error (.inr ⟨rfl, fun keys => ?_⟩)
              obtain ⟨s, hs⟩ := keys k v (.head _)
              cases hk.symm.trans hs
        · rintro e (⟨rfl, item, hitem, hmalformed⟩ | ⟨rfl, hkeys⟩)
          · exact .inl ⟨rfl, item, .tail _ hitem, hmalformed⟩
          · exact .inr ⟨rfl, fun keys => hkeys fun k v hmem => keys k v (.tail _ hmem)⟩
      · rename_i hother heq
        cases heq
        exact .error (.inl ⟨rfl, _, .head _, hother⟩)

/-- An item that is no single entry refuses the items as a whole, wherever it stands. -/
theorem entriesOfItems_eq_refusal_iff {items : List Value} (keys : HasKeys items) :
    entriesOfItems items = .error refusal ↔ ∃ item ∈ items, IsMalformed item := by
  induction items with
  | nil => simp [entriesOfItems]
  | cons item rest ih =>
      have ih := ih fun k v hmem => keys k v (.tail _ hmem)
      rw [List.exists_mem_cons_iff]
      unfold entriesOfItems
      split
      · rename_i heq
        cases heq
      · rename_i k v rest heq
        cases heq
        obtain ⟨s, hs⟩ := keys k v (.head _)
        rw [or_iff_right (fun h => h k v rfl), ← ih, keyText_eq_ok_iff.mpr hs]
        cases entriesOfItems rest with
        | error e => exact Iff.rfl
        | ok es => exact iff_of_false nofun nofun
      · rename_i hother heq
        cases heq
        exact iff_of_true rfl (.inl hother)

end Entries

section Directives

theorem Asks.unique {e : String × Value} {d d' : SortDirective}
    (h : Asks registry seedLength e d) (h' : Asks registry seedLength e d') : d = d' := by
  cases h with
  | column other declared said =>
      cases h' with
      | column _ _ said' =>
          have hread := Direction.ofValue?_eq_some_iff.mpr ⟨_, rfl, said⟩
          have hread' := Direction.ofValue?_eq_some_iff.mpr ⟨_, rfl, said'⟩
          cases hread.symm.trans hread'
          rfl
      | random => exact absurd rfl other
  | random left nonempty =>
      cases h' with
      | column other => exact absurd rfl other
      | random left' _ =>
          cases left.symm.trans left'
          rfl

/-- What is made of an entry is what it asks for. -/
theorem asks_iff_of_directive? {e : String × Value} {first : Option SortDirective}
    (h : directive? registry seedLength e.1 e.2 = .ok first) (d : SortDirective) :
    Asks registry seedLength e d ↔ first = some d := by
  obtain ⟨field, v⟩ := e
  unfold directive? at h
  dsimp only at h
  constructor
  · intro hasks
    cases hasks with
    | column other declared said =>
        have hhas : registry.has field = true := List.contains_iff_mem.mpr declared
        rw [if_neg other, if_pos hhas,
          Direction.ofValue?_eq_some_iff.mpr ⟨_, rfl, said⟩] at h
        exact (Except.ok.inj h).symm
    | random left nonempty =>
        rw [if_pos rfl, left] at h
        dsimp only at h
        rw [if_neg (by simpa using nonempty)] at h
        exact (Except.ok.inj h).symm
  · rintro rfl
    split at h
    · rename_i hrandom
      subst hrandom
      split at h
      · rename_i s hseed
        split at h
        · cases h
        · rename_i hempty
          cases h
          exact .random hseed (by simpa using hempty)
      · cases h
    · rename_i other
      split at h
      · rename_i hhas
        obtain ⟨direction, hdirection, rfl⟩ := Option.map_eq_some_iff.mp (Except.ok.inj h)
        obtain ⟨s, rfl, said⟩ := Direction.ofValue?_eq_some_iff.mp hdirection
        exact .column other (List.contains_iff_mem.mp hhas) said
      · cases h

theorem exists_directive?_iff {e : String × Value} :
    (∃ first, directive? registry seedLength e.1 e.2 = .ok first) ↔
      (e.1 = randomField → ∃ s, seed e.2 seedLength = .ok s) := by
  unfold directive?
  by_cases hrandom : e.1 = randomField
  · rw [if_pos hrandom]
    cases seed e.2 seedLength <;> simp [hrandom]
  · rw [if_neg hrandom]
    split <;> simp [hrandom]

theorem picks_cons_iff {e : String × Value} {es : List (String × Value)}
    {first : Option SortDirective} (h : directive? registry seedLength e.1 e.2 = .ok first)
    {ds : List SortDirective} :
    Picks registry seedLength (e :: es) ds ↔
      ∃ others, Picks registry seedLength es others ∧ ds = first.toList ++ others := by
  have hasks := asks_iff_of_directive? h
  constructor
  · intro hpicks
    cases hpicks with
    | asking hasked rest =>
        rw [(hasks _).mp hasked]
        exact ⟨_, rest, rfl⟩
    | passing hnone rest =>
        have hfirst : first = none :=
          Option.eq_none_iff_forall_ne_some.mpr fun d hd => hnone d ((hasks d).mpr hd)
        exact ⟨ds, rest, by rw [hfirst]; rfl⟩
  · rintro ⟨others, rest, rfl⟩
    cases first with
    | none => exact .passing (fun d hd => nomatch (hasks d).mp hd) rest
    | some d => exact .asking ((hasks d).mpr rfl) rest

theorem directives_eq_ok_iff {es : List (String × Value)} {ds : List SortDirective} :
    directives registry seedLength es = .ok ds ↔
      HasSeeds seedLength es ∧ Picks registry seedLength es ds := by
  induction es generalizing ds with
  | nil =>
      constructor
      · rintro ⟨⟩
        exact ⟨List.forall_mem_nil _, .nil⟩
      · rintro ⟨-, ⟨⟩⟩
        rfl
  | cons e rest ih =>
      unfold HasSeeds at ih ⊢
      rw [List.forall_mem_cons, ← @exists_directive?_iff registry]
      constructor
      · intro h
        obtain ⟨first, hfirst, h⟩ := Outcome.bind_eq_ok_iff.mp h
        obtain ⟨others, hothers, h⟩ := Outcome.bind_eq_ok_iff.mp h
        obtain ⟨hseeds, hpicks⟩ := ih.mp hothers
        exact ⟨⟨⟨first, hfirst⟩, hseeds⟩,
          (picks_cons_iff hfirst).mpr ⟨others, hpicks, (Except.ok.inj h).symm⟩⟩
      · rintro ⟨⟨⟨first, hfirst⟩, hseeds⟩, hpicks⟩
        obtain ⟨others, hothers, rfl⟩ := (picks_cons_iff hfirst).mp hpicks
        refine Outcome.bind_eq_ok_iff.mpr ⟨first, hfirst, ?_⟩
        exact Outcome.bind_eq_ok_iff.mpr ⟨others, ih.mpr ⟨hseeds, hothers⟩, rfl⟩

theorem Picks.mem_iff {es : List (String × Value)} {ds : List SortDirective}
    (h : Picks registry seedLength es ds) {d : SortDirective} :
    d ∈ ds ↔ ∃ e ∈ es, Asks registry seedLength e d := by
  induction h with
  | nil => simp
  | asking hasks _ ih =>
      rw [List.mem_cons, List.exists_mem_cons_iff, ih]
      refine or_congr_left ⟨?_, fun h => h.unique hasks⟩
      rintro rfl
      exact hasks
  | passing hnone _ ih => rw [List.exists_mem_cons_iff, ih, or_iff_right (hnone d)]

theorem exists_seed {v : Value} (h : v.IsWritable) : ∃ s, seed v seedLength = .ok s := by
  cases h with
  | int h =>
      obtain ⟨s, hs⟩ := Option.isSome_iff_exists.mp h
      simp only [seed, Value.text?, Value.literal?, hs]
      exact ⟨_, rfl⟩
  | _ => exact ⟨_, rfl⟩

theorem seed_eq_error {v : Value} {fault : Fault} (h : seed v seedLength = .error fault) :
    fault = .badValue := by
  unfold seed at h
  split at h
  · cases h
  · cases h
  · cases h
  · cases h
  · split at h
    · cases h
    · cases h
      rfl

theorem failsAs_directives (es : List (String × Value)) :
    FailsAs (fun e => e = .fault .badValue ∧ ¬HasSeeds seedLength es)
      (directives registry seedLength es) := by
  induction es with
  | nil => exact .ok _
  | cons e rest ih =>
      unfold HasSeeds at ih ⊢
      rw [List.forall_mem_cons]
      refine .bind ?_ fun _ _ => .bind (ih.mono ?_) fun _ _ => .ok _
      · unfold directive?
        by_cases hrandom : e.1 = randomField
        · rw [if_pos hrandom]
          cases hseed : seed e.2 seedLength with
          | ok s => exact .ok _
          | error fault =>
              refine .error ⟨by rw [seed_eq_error hseed], fun seeds => ?_⟩
              obtain ⟨s, ⟨⟩⟩ := seeds.1 hrandom
        · rw [if_neg hrandom]
          exact .ite (.ok _) (.ok _)
      · rintro failure ⟨rfl, hseeds⟩
        exact ⟨rfl, fun seeds => hseeds seeds.2⟩

theorem picks_append_iff {es es' : List (String × Value)} {ds : List SortDirective} :
    Picks registry seedLength (es ++ es') ds ↔
      ∃ x y, Picks registry seedLength es x ∧ Picks registry seedLength es' y ∧ ds = x ++ y := by
  induction es generalizing ds with
  | nil =>
      constructor
      · exact fun h => ⟨[], ds, .nil, h, rfl⟩
      · rintro ⟨x, y, hx, hy, rfl⟩
        cases hx
        exact hy
  | cons e rest ih =>
      constructor
      · intro h
        cases h with
        | asking hasks h =>
            obtain ⟨x, y, hx, hy, rfl⟩ := ih.mp h
            exact ⟨_ :: x, y, .asking hasks hx, hy, rfl⟩
        | passing hnone h =>
            obtain ⟨x, y, hx, hy, rfl⟩ := ih.mp h
            exact ⟨x, y, .passing hnone hx, hy, rfl⟩
      · rintro ⟨x, y, hx, hy, rfl⟩
        cases hx with
        | asking hasks hx => exact .asking hasks (ih.mpr ⟨_, y, hx, hy, rfl⟩)
        | passing hnone hx => exact .passing hnone (ih.mpr ⟨x, y, hx, hy, rfl⟩)

end Directives

section Compile

theorem compile_object (es : Entries) : compile registry seedLength (.object es) =
    compile registry seedLength (.list (es.map fun e => .object [e])) := by
  rw [compile, compile, entries_object, entries_list, entriesOf_eq_entriesOfItems]

theorem compile_list_eq_ok_iff {items : List Value} {ds : List SortDirective} :
    compile registry seedLength (.list items) = .ok ds ↔
      ∃ es, List.Forall₂ IsEntry items es ∧ HasSeeds seedLength es ∧
        Picks registry seedLength es ds := by
  simp only [compile, entries_list, Outcome.bind_eq_ok_iff, entriesOfItems_eq_ok_iff,
    directives_eq_ok_iff]

theorem compile_append_eq_ok_iff {items items' : List Value} {ds : List SortDirective} :
    compile registry seedLength (.list (items ++ items')) = .ok ds ↔
      ∃ x y, compile registry seedLength (.list items) = .ok x ∧
        compile registry seedLength (.list items') = .ok y ∧ ds = x ++ y := by
  simp only [compile_list_eq_ok_iff]
  constructor
  · rintro ⟨es, hentries, hseeds, hpicks⟩
    have hfirst := List.forall₂_take items.length hentries
    have hsecond := List.forall₂_drop items.length hentries
    rw [List.take_left] at hfirst
    rw [List.drop_left] at hsecond
    rw [← List.take_append_drop items.length es] at hseeds hpicks
    obtain ⟨hseedsFirst, hseedsSecond⟩ := List.forall_mem_append.mp hseeds
    obtain ⟨x, y, hx, hy, rfl⟩ := picks_append_iff.mp hpicks
    exact ⟨x, y, ⟨_, hfirst, hseedsFirst, hx⟩, ⟨_, hsecond, hseedsSecond, hy⟩, rfl⟩
  · rintro ⟨x, y, ⟨es, hentries, hseeds, hx⟩, ⟨es', hentries', hseeds', hy⟩, rfl⟩
    exact ⟨es ++ es', List.rel_append hentries hentries',
      List.forall_mem_append.mpr ⟨hseeds, hseeds'⟩, picks_append_iff.mpr ⟨x, y, hx, hy, rfl⟩⟩

/-- A list fails to compile for one of two reasons: an item is malformed, or a key or a value for a
random order cannot be written. -/
theorem failsAs_compile_list (items : List Value) :
    FailsAs (fun e => (e = refusal ∧ ∃ item ∈ items, IsMalformed item) ∨
      (e = .fault .badValue ∧ ¬(HasKeys items ∧
        ∀ es, List.Forall₂ IsEntry items es → HasSeeds seedLength es)))
      (compile registry seedLength (.list items)) := by
  unfold compile
  rw [entries_list]
  refine .bind ((failsAs_entriesOfItems items).mono ?_) fun es hes =>
    (failsAs_directives es).mono ?_
  · rintro e (hrefused | ⟨rfl, hkeys⟩)
    · exact .inl hrefused
    · exact .inr ⟨rfl, fun h => hkeys h.1⟩
  · rintro e ⟨rfl, hseeds⟩
    exact .inr ⟨rfl, fun h => hseeds (h.2 es (entriesOfItems_eq_ok_iff.mp hes))⟩

theorem compile_list_eq_refusal_iff {items : List Value} (keys : HasKeys items) :
    compile registry seedLength (.list items) = .error refusal ↔
      ∃ item ∈ items, IsMalformed item := by
  rw [← entriesOfItems_eq_refusal_iff keys, compile, entries_list]
  cases entriesOfItems items with
  | error e => simp [bind, Except.bind]
  | ok es =>
      refine iff_of_false (fun h => ?_) nofun
      obtain ⟨hrefusal, -⟩ := failsAs_directives es _ h
      cases hrefusal

theorem hasKeys_of_writable {items : List Value} (h : ∀ v ∈ items, v.IsWritable) :
    HasKeys items ∧ ∀ es, List.Forall₂ IsEntry items es → HasSeeds seedLength es := by
  have hentry : ∀ k v, .object [(k, v)] ∈ items → k.IsText ∧ v.IsWritable := by
    intro k v hmem
    cases h _ hmem with
    | object keys values => exact ⟨keys _ (.head _), values _ (.head _)⟩
  constructor
  · intro k v hmem
    obtain ⟨t, rfl⟩ := (hentry k v hmem).1
    exact ⟨t, rfl⟩
  · intro es hes e he _
    obtain ⟨k, hmem⟩ := exists_item_of_mem hes he
    exact exists_seed (hentry k e.2 hmem).2

theorem failsAs_compile_writable {items : List Value} (h : ∀ v ∈ items, v.IsWritable) :
    FailsAs (fun e => e = refusal) (compile registry seedLength (.list items)) :=
  (failsAs_compile_list items).mono fun _ he =>
    he.elim (fun hrefused => hrefused.1) fun hfault => absurd (hasKeys_of_writable h) hfault.2

theorem failsAs_compile {order : Value} (h : order.IsWritable) (registry : Registry)
    (seedLength : Int) : FailsAs (fun e => e = refusal) (compile registry seedLength order) := by
  cases h with
  | list h => exact failsAs_compile_writable h
  | object keys values =>
      rw [compile_object]
      refine failsAs_compile_writable ?_
      rw [List.forall_mem_map]
      intro e he
      exact .object (List.forall_mem_singleton.mpr (keys e he))
        (List.forall_mem_singleton.mpr (values e he))
  | _ =>
      -- without a value there are no entries, and any other value is no order
      refine .bind (.ite (.ok _) (.error rfl)) fun es hes => ?_
      have hnone : es = [] := by
        unfold entries at hes
        split at hes
        · exact (Except.ok.inj hes).symm
        · cases hes
      rw [hnone]
      exact .ok _

theorem Picks.isRandom {es : List (String × Value)} {ds : List SortDirective}
    (h : Picks registry seedLength es ds) :
    ∀ d ∈ ds, d.field = randomField → d.isRandom = true := by
  induction h with
  | nil => exact List.forall_mem_nil _
  | asking hasks _ ih =>
      refine List.forall_mem_cons.mpr ⟨fun hfield => ?_, ih⟩
      cases hasks with
      | column other => exact absurd hfield other
      | random => rfl
  | passing _ _ ih => exact ih

end Compile

/-- An order compiles to the directives of those entries that ask for one, in the order of the
entries. A list is refused just where some item is no object with a single entry. -/
theorem orders_compile_entry_by_entry (registry : Registry) (seedLength : Int) :
    (∀ es : Entries, compile registry seedLength (.object es) =
      compile registry seedLength (.list (es.map fun e => .object [e]))) ∧
    (∀ items items' ds, compile registry seedLength (.list (items ++ items')) = .ok ds ↔
      ∃ x y, compile registry seedLength (.list items) = .ok x ∧
        compile registry seedLength (.list items') = .ok y ∧ ds = x ++ y) ∧
    (∀ items, HasKeys items → (compile registry seedLength (.list items) = .error refusal ↔
      ∃ item ∈ items, IsMalformed item)) ∧
    (∀ items ds, compile registry seedLength (.list items) = .ok ds ↔
      ∃ es, List.Forall₂ IsEntry items es ∧ HasSeeds seedLength es ∧
        Picks registry seedLength es ds) ∧
    (∀ items e, compile registry seedLength (.list items) = .error e →
      (e = refusal ∧ ∃ item ∈ items, IsMalformed item) ∨
      (e = .fault .badValue ∧ ¬(HasKeys items ∧
        ∀ es, List.Forall₂ IsEntry items es → HasSeeds seedLength es))) ∧
    (∀ s items, Json.read? s = some (.list items) →
      HasKeys items ∧ ∀ es, List.Forall₂ IsEntry items es → HasSeeds seedLength es) ∧
    ∀ order ds, compile registry seedLength order = .ok ds →
      ∀ d ∈ ds, d.field = randomField → d.isRandom = true := by
  refine ⟨compile_object, fun _ _ _ => compile_append_eq_ok_iff,
    fun _ => compile_list_eq_refusal_iff, fun _ _ => compile_list_eq_ok_iff,
    failsAs_compile_list, ?_, ?_⟩
  · intro s items h
    cases Json.holdsOfRead_isWritable.of_read (Json.read?_eq_some_iff.mp h) with
    | list hitems => exact hasKeys_of_writable hitems
  · intro order ds h
    obtain ⟨es, -, h⟩ := Outcome.bind_eq_ok_iff.mp h
    exact (directives_eq_ok_iff.mp h).2.isRandom

section Mixed

def shuffledRegistry : Registry where
  fields := [{ name := "title" }, { name := "random" }]

def mixedItems : List Value :=
  [.object [(.text "random", .text "-b7")], .object [(.text "owner", .text "asc")],
    .object [(.text "title", .text " DESC ")], .object [(.text "title", .text "up")]]

theorem hasKeys_mixedItems : HasKeys (mixedItems ++ [.object []]) := by
  intro k v hmem
  simp only [mixedItems, List.cons_append, List.nil_append, List.mem_cons, Value.object.injEq,
    List.cons.injEq, Prod.mk.injEq, reduceCtorEq, List.not_mem_nil, and_true, or_false] at hmem
  rcases hmem with ⟨rfl, -⟩ | ⟨rfl, -⟩ | ⟨rfl, -⟩ | ⟨rfl, -⟩
  all_goals exact ⟨_, rfl⟩

/-- An empty object at the end refuses what compiles without it. -/
theorem empty_object_refuses_order :
    HasKeys (mixedItems ++ [.object []]) ∧
      compile shuffledRegistry 16 (.list (mixedItems ++ [.object []])) = .error refusal ∧
      compile shuffledRegistry 16 (.list mixedItems) = .ok [
        { field := "random", direction := .descending, seed := some "b7" },
        { field := "title", direction := .descending }] ∧
      ∃ es, List.Forall₂ IsEntry mixedItems es ∧ HasSeeds 16 es ∧ Picks shuffledRegistry 16 es [
        { field := "random", direction := .descending, seed := some "b7" },
        { field := "title", direction := .descending }] := by
  obtain ⟨-, -, hrefused, hpicked, -⟩ := orders_compile_entry_by_entry shuffledRegistry 16
  have hcompiled : compile shuffledRegistry 16 (.list mixedItems) = .ok [
      { field := "random", direction := .descending, seed := some "b7" },
      { field := "title", direction := .descending }] := by
    decide +kernel
  refine ⟨hasKeys_mixedItems, ?_, hcompiled, (hpicked _ _).mp hcompiled⟩
  refine (hrefused _ hasKeys_mixedItems).mpr ⟨.object [], by simp, nofun⟩

end Mixed

end Order

end Catalogue
