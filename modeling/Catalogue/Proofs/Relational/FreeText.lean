import Catalogue.Proofs.Parity.Wildcards
import Catalogue.Proofs.Relational.Acceptance
import Catalogue.Proofs.Relational.Content
import Catalogue.Proofs.Relational.Deletion
import Catalogue.Proofs.Store.Rearrangement

/-!
Free text in a table. It is found where it stands in a text as it is written, whatever its
characters, but for the case of ASCII letters; and a listing with free text is the listing without it
over the rows in which the text is found.
-/

namespace Catalogue.Relational

open Parity (markerConditions)

section Case

def IsCapital (c : Char) : Prop :=
  c.val ≥ 'A'.val ∧ c.val ≤ 'Z'.val

theorem toLower_of_not_isCapital {c : Char} (h : ¬IsCapital c) : c.toLower = c :=
  dif_neg h

theorem val_toLower_of_isCapital {c : Char} (h : IsCapital c) : c.toLower.val = c.val + 32 := by
  have hlower : c.toLower.val = c.val + ('a'.val - 'A'.val) := congrArg Char.val (dif_pos h)
  exact hlower

theorem not_isCapital_toLower (c : Char) : ¬IsCapital c.toLower := by
  by_cases h : IsCapital c
  · unfold IsCapital at *
    rw [val_toLower_of_isCapital h]
    grind
  · rwa [toLower_of_not_isCapital h]

/-- Only a mark becomes a mark in lower case. -/
theorem toLower_eq_iff_of_mark {c mark : Char} (hmark : mark = '\\' ∨ mark = '%' ∨ mark = '_') :
    c.toLower = mark ↔ c = mark := by
  by_cases h : IsCapital c
  · have hval := val_toLower_of_isCapital h
    have hne : c.toLower.val ≠ mark.val ∧ c.val ≠ mark.val := by
      unfold IsCapital at h
      rcases hmark with rfl | rfl | rfl <;> grind
    refine iff_of_false ?_ ?_
    · rintro rfl
      exact hne.1 rfl
    · rintro rfl
      exact hne.2 rfl
  · rw [toLower_of_not_isCapital h]

theorem agree_iff {c d : Char} : agree c d = true ↔ c.toLower = d.toLower := by
  unfold agree
  rw [Bool.or_eq_true, beq_iff_eq, beq_iff_eq]
  constructor
  · rintro (rfl | h)
    · rfl
    · exact h
  · exact .inr

theorem agree_toLower (c d : Char) : agree c.toLower d.toLower = agree c d := by
  rw [Bool.eq_iff_iff, agree_iff, agree_iff, toLower_of_not_isCapital (not_isCapital_toLower c),
    toLower_of_not_isCapital (not_isCapital_toLower d)]

def LikePart.lower : LikePart → LikePart
  | .exactly c => .exactly c.toLower
  | part => part

theorem tails_map (f : Char → Char) (s : List Char) :
    tails (s.map f) = (tails s).map (List.map f) := by
  induction s with
  | nil => rfl
  | cons c rest ih => simp [tails, ih]

theorem matchesParts_lower (parts : List LikePart) (s : List Char) :
    matchesParts (parts.map LikePart.lower) (s.map Char.toLower) = matchesParts parts s := by
  induction parts generalizing s with
  | nil => simp [matchesParts]
  | cons part parts ih =>
      rw [List.map_cons]
      cases part with
      | anything =>
          simp only [LikePart.lower, matchesParts, tails_map, List.any_map]
          congr 1
          exact funext ih
      | anyChar =>
          cases s with
          | nil => rfl
          | cons d rest => exact ih rest
      | exactly c =>
          cases s with
          | nil => rfl
          | cons d rest =>
              simp only [LikePart.lower, List.map_cons, matchesParts]
              rw [agree_toLower, ih]

theorem likeParts?_lower (pattern : List Char) :
    likeParts? '\\' (pattern.map Char.toLower) =
      (likeParts? '\\' pattern).map (List.map LikePart.lower) := by
  have hcons : ∀ {c : Char} {rest : List Char}, c ≠ '\\' →
      likeParts? '\\' (rest.map Char.toLower) = (likeParts? '\\' rest).map (List.map LikePart.lower) →
        likeParts? '\\' ((c :: rest).map Char.toLower) =
          (likeParts? '\\' (c :: rest)).map (List.map LikePart.lower) := by
    intro c rest hescape ih
    have hlower : c.toLower ≠ '\\' := fun h => hescape ((toLower_eq_iff_of_mark (.inl rfl)).mp h)
    rw [List.map_cons, likeParts?_cons hlower, ih, likeParts?_cons hescape, Option.map_map,
      Option.map_map]
    congr 1
    funext parts
    simp only [Function.comp_apply, List.map_cons, List.cons.injEq, and_true,
      toLower_eq_iff_of_mark (.inr (.inl rfl)), toLower_eq_iff_of_mark (.inr (.inr rfl))]
    split
    · rfl
    · split <;> rfl
  induction pattern using likeParts?.induct '\\' with
  | case1 => rfl
  | case2 => rfl
  | case3 c hescape => exact hcons hescape rfl
  | case4 c rest ih =>
      have hescape : Char.toLower '\\' = '\\' := by decide
      rw [List.map_cons, List.map_cons, hescape, likeParts?_escaped, likeParts?_escaped, ih,
        Option.map_map, Option.map_map]
      rfl
  | case5 c d rest hescape ih => exact hcons hescape ih

/-- Lower case on both sides changes nothing: the marks of the pattern stay what they are. -/
theorem like_lower (pattern s : List Char) :
    like '\\' (pattern.map Char.toLower) (s.map Char.toLower) = like '\\' pattern s := by
  unfold like
  rw [likeParts?_lower]
  cases likeParts? '\\' pattern with
  | none => rfl
  | some parts => exact matchesParts_lower parts s

end Case

section Contains

/-- One text stands somewhere in the other one, but for the case of ASCII letters. -/
def ContainsFolded (text s : List Char) : Prop :=
  text.map Char.toLower <:+: s.map Char.toLower

theorem forall₂_agree_iff {s t : List Char} :
    List.Forall₂ (fun c d => agree c d = true) s t ↔ s.map Char.toLower = t.map Char.toLower := by
  simp only [agree_iff, ← List.forall₂_eq_eq_eq, List.forall₂_map_left_iff,
    List.forall₂_map_right_iff]

theorem coversFolded_iff_containsFolded (text : String) (s : List Char) :
    ({ text, leading := true, trailing := true } : Wildcard).CoversFolded s ↔
      ContainsFolded text.toList s := by
  simp only [Wildcard.CoversFolded, Wildcard.Covers, forall₂_agree_iff, Bool.true_eq_false,
    false_implies, and_true]
  constructor
  · rintro ⟨before, mid, after, rfl, hmid⟩
    refine ⟨before.map Char.toLower, after.map Char.toLower, ?_⟩
    rw [hmid, List.map_append, List.map_append]
  · rintro ⟨before, after, heq⟩
    obtain ⟨first, rest, rfl, hfirst, -⟩ := List.append_eq_map_iff.mp heq
    obtain ⟨before', mid, rfl, -, hmid⟩ := List.append_eq_map_iff.mp hfirst.symm
    exact ⟨before', mid, rest, rfl, hmid.symm⟩

theorem like_containsPattern_iff (text : String) (s : List Char) :
    like '\\' (containsPattern text).toList s = true ↔ ContainsFolded text.toList s := by
  rw [← coversFolded_iff_containsFolded]
  exact Wildcard.like_toLike_iff _ s

/-- So it does in lower case on both sides, the way the comparison is sent. -/
theorem like_lower_containsPattern_iff (text : String) (s : List Char) :
    like '\\' ((containsPattern text).toList.map Char.toLower) (s.map Char.toLower) = true ↔
      ContainsFolded text.toList s := by
  rw [like_lower, like_containsPattern_iff]

/-- One of the columns holds a text with the given one in it. A stored text is seen up to its first
null character. -/
def Mentions (t : Table) (columns : List Column) (text : String) (row : Row) : Prop :=
  ∃ c ∈ columns, ∃ s, t.cell row c = .text s ∧
    ContainsFolded text.toList (s.toList.takeWhile (· != '\x00'))

theorem isLike_containsPattern_iff {text : String} (plain : '\x00' ∉ text.toList) {cell : Cell}
    (hcell : cell.IsOf .text) : Atom.isLike (containsPattern text) cell = true ↔
      ∃ s, cell = .text s ∧ ContainsFolded text.toList (s.toList.takeWhile (· != '\x00')) := by
  have hpattern : '\x00' ∉ (containsPattern text).toList := by
    intro hmem
    rcases Parity.mem_toLike hmem with htext | hmark | hescape
    · exact plain htext
    · cases hmark
    · cases hescape
  unfold Atom.isLike
  rw [Parity.takeWhile_of_plain hpattern]
  cases hcell with
  | null => simp [Cell.textForm?, Cell.asText]
  | text s =>
      simp only [Cell.textForm?, Cell.asText, like_containsPattern_iff, Cell.text.injEq,
        exists_eq_left']

/-- The condition of free text: one of the columns has to hold it. -/
def textCondition (columns : List Column) (text : String) : Condition :=
  columns.map fun c => .matchesFolded c (containsPattern text)

theorem holds_textCondition_iff {t : Table} {columns : List Column} {text : String} {row : Row}
    (plain : '\x00' ∉ text.toList) (texts : ∀ c ∈ columns, (t.cell row c).IsOf .text) :
    (textCondition columns text).holds t row = true ↔ Mentions t columns text row := by
  unfold Condition.holds textCondition
  rw [List.any_map, List.any_eq_true]
  exact exists_congr fun c => and_congr_right fun hc => isLike_containsPattern_iff plain (texts c hc)

theorem isTooLong_of_mem_textCondition {columns : List Column} {text : String}
    (short : IsShort (.textSearch text)) :
    ∀ a ∈ textCondition columns text, a.isTooLong = false := by
  unfold textCondition
  rw [List.forall_mem_map]
  exact fun c _ => decide_eq_false (Nat.not_lt_of_le short)

theorem isBindable_textCondition (columns : List Column) (text : String) :
    IsBindable (textCondition columns text) := by
  induction columns with
  | nil => exact ⟨[], [], rfl, rfl⟩
  | cons c rest ih =>
      obtain ⟨parameters, cells, hparameters, hcells⟩ := ih
      refine ⟨.text (containsPattern text) :: parameters,
        .text (containsPattern text) :: cells, ?_, ?_⟩
      · obtain ⟨lists, hlists, rfl⟩ := Option.map_eq_some_iff.mp hparameters
        unfold Condition.parameters? textCondition at *
        rw [List.map_cons, List.mapM_cons, hlists]
        rfl
      · rw [List.mapM_cons, hcells]
        rfl

end Contains

section Granted

variable {first second : List Condition} {c : Condition}

theorem Database.select_granted {db : Database}
    (granted : ∀ row ∈ db.rows, c.holds db.table row = true)
    (unbounding : ∀ key, bounds key c = false) (s : Selection) :
    db.select { s with conditions := first ++ c :: second } =
      db.select { s with conditions := first ++ second } := by
  have hscan : db.scan (first ++ c :: second) = db.scan (first ++ second) := by
    unfold scan
    split
    · rfl
    · simp [unbounding]
  have hmet : (db.scan (first ++ second)).filter (db.isSelected (first ++ c :: second)) =
      (db.scan (first ++ second)).filter (db.isSelected (first ++ second)) := by
    apply List.filter_congr
    intro row hrow
    simp [isSelected, granted row ((db.scan_perm _).subset hrow)]
  unfold select
  dsimp only
  rw [hscan, hmet]

theorem Database.selected_granted {db : Database}
    (granted : ∀ row ∈ db.rows, c.holds db.table row = true) :
    db.selected (first ++ c :: second) = db.selected (first ++ second) := by
  apply List.filter_congr
  intro row hrow
  simp [isSelected, granted row hrow]

/-- The database's rows of which a condition is true. -/
def Database.meeting (db : Database) (c : Condition) : Database :=
  db.withRows (db.rows.filter fun row => c.holds db.table row)

def Session.meeting (s : Session) (c : Condition) : Session :=
  { s with database := s.database.meeting c }

theorem Database.holds_of_mem_meeting {db : Database} :
    ∀ row ∈ (db.meeting c).rows, c.holds (db.meeting c).table row = true :=
  fun _ hrow => (List.mem_filter.mp hrow).2

section Draft

variable {source : Source} {session : Session} {d : Draft}

theorem Draft.allConditions_split (hd : d.conditions = first ++ second) :
    d.allConditions source = first ++ (second ++ markerConditions source) := by
  rw [allConditions, hd, List.append_assoc]
  rfl

theorem Draft.allConditions_insert :
    ({ d with conditions := first ++ c :: second } : Draft).allConditions source =
      first ++ c :: (second ++ markerConditions source) := by
  rw [allConditions, List.append_assoc, List.cons_append]
  rfl

/-- With a further condition a draft shows and counts the rows that meet it. -/
theorem Draft.page_insert (hd : d.conditions = first ++ second) (kept : session.database.IsKept)
    (unbounding : ∀ key, Database.bounds key c = false) :
    ({ d with conditions := first ++ c :: second } : Draft).page source session =
      d.page source (session.meeting c) := by
  have hholds : ∀ (rest : List Condition) (row : Row),
      session.database.isSelected (first ++ c :: rest) row = true →
        c.holds session.database.table row = true := by
    intro rest row h
    exact List.all_eq_true.mp h c (List.mem_append_right _ (.head _))
  have hselect : session.database.select
      (({ d with conditions := first ++ c :: second } : Draft).selection source) =
        (session.meeting c).database.select (d.selection source) := by
    have hgranted : (session.database.meeting c).select
        { d.selection source with conditions := first ++ c :: (second ++ markerConditions source) } =
          (session.database.meeting c).select
            { d.selection source with conditions := first ++ (second ++ markerConditions source) } :=
      Database.select_granted Database.holds_of_mem_meeting unbounding _
    rw [← Draft.allConditions_split hd, ← Draft.allConditions_insert] at hgranted
    refine Eq.trans ?_ hgranted
    exact (Database.select_filter kept (hholds _) Draft.allConditions_insert).symm
  have hselected : session.database.selected
      (({ d with conditions := first ++ c :: second } : Draft).allConditions source) =
        (session.meeting c).database.selected (d.allConditions source) := by
    have hgranted : (session.database.meeting c).selected
        (first ++ c :: (second ++ markerConditions source)) =
          (session.database.meeting c).selected (first ++ (second ++ markerConditions source)) :=
      Database.selected_granted Database.holds_of_mem_meeting
    rw [← Draft.allConditions_split hd, ← Draft.allConditions_insert] at hgranted
    refine Eq.trans ?_ hgranted
    rw [Draft.allConditions_insert]
    exact (Database.selected_filter (hholds _)).symm
  unfold page
  rw [hselect, hselected]

/-- With a further condition a draft is taken where it is without, short of the limits. -/
theorem Draft.takes_insert_iff (hd : d.conditions = first ++ second) (bindable : IsBindable c)
    (short : ∀ a ∈ c, a.isTooLong = false)
    (others_short : ∀ other ∈ d.conditions, ∀ a ∈ other, a.isTooLong = false)
    (limited : (Statement.page (({ d with conditions := first ++ c :: second } : Draft).selection
      source)).isWithinLimits = true) :
    session.Takes (({ d with conditions := first ++ c :: second } : Draft).selection source) ↔
      (session.meeting c).Takes (d.selection source) := by
  have hsplit : (d.selection source).conditions = first ++ (second ++ markerConditions source) :=
    allConditions_split hd
  have hinsert : (({ d with conditions := first ++ c :: second } : Draft).selection
      source).conditions = first ++ c :: (second ++ markerConditions source) := allConditions_insert
  have hbindable : (∀ other ∈ (({ d with conditions := first ++ c :: second } : Draft).selection
      source).conditions, IsBindable other) ↔
        ∀ other ∈ (d.selection source).conditions, IsBindable other := by
    simp only [hsplit, hinsert, List.forall_mem_append, List.forall_mem_cons, bindable, true_and]
  have hfewer : (d.selection source).conditions.Sublist
      (({ d with conditions := first ++ c :: second } : Draft).selection source).conditions := by
    rw [hsplit, hinsert]
    exact (List.sublist_cons_self c _).append_left first
  constructor
  · intro takes
    exact ⟨takes.undisturbed, takes.present,
      Statement.isWithinLimits_page_of_sublist hfewer rfl limited, hbindable.mp takes.bindable,
      takes.sendable, Database.triesTooLong_eq_false _ (isShort_allConditions others_short)⟩
  · intro takes
    refine ⟨takes.undisturbed, takes.present, limited, hbindable.mpr takes.bindable,
      takes.sendable, Database.triesTooLong_eq_false _ (isShort_allConditions ?_)⟩
    rw [hd, List.forall_mem_append] at others_short
    exact List.forall_mem_append.mpr
      ⟨others_short.1, List.forall_mem_cons.mpr ⟨short, others_short.2⟩⟩

end Draft

end Granted

section Run

variable {source : Source} {call : Call} {c : Condition}

theorem Source.draft_insert (hcall : Change.ofCall source call = ({ conditions := [c] }, .ok ()))
    (before after : List Call) :
    (∃ e, source.draft (before ++ after) = .error e ∧
      source.draft (before ++ call :: after) = .error e) ∨
    ∃ d first second, source.draft (before ++ after) = .ok d ∧ d.conditions = first ++ second ∧
      source.draft (before ++ call :: after) = .ok { d with conditions := first ++ c :: second } := by
  unfold draft
  rw [Change.ofCalls_append, Change.ofCalls_append, Change.ofCalls, hcall]
  generalize Change.ofCalls source before = head
  generalize Change.ofCalls source after = tail
  obtain ⟨first, outcome⟩ := head
  obtain ⟨second, outcome'⟩ := tail
  cases outcome with
  | error e => exact .inl ⟨e, rfl, rfl⟩
  | ok _ =>
      cases outcome' with
      | error e => exact .inl ⟨e, rfl, rfl⟩
      | ok _ =>
          refine .inr ⟨_, first.conditions, second.conditions, rfl, ?_, ?_⟩
          · simp [Draft.extend, Change.append]
          · cases hpage : second.page <;>
              simp [Change.andThen, Draft.extend, Change.append, hpage]

theorem Change.ofCall_textSearch {columns : List Column} {text : String}
    (declared : source.textFields ≠ []) (hcolumns : source.textColumns = .ok columns) :
    ofCall source (.textSearch text) = ({ conditions := [textCondition columns text] }, .ok ()) := by
  have hempty : source.textFields.isEmpty = false := by simpa using declared
  simp only [ofCall, hempty, hcolumns, textCondition]
  rfl

theorem run_textSearch_of_nil (h : source.textFields = []) (session : Session) (text : String)
    (before after : List Call) :
    ((adapter source).run { session } (before ++ .textSearch text :: after)).2 =
      ((adapter source).run { session } (before ++ after)).2 := by
  have hcall : Change.ofCall source (.textSearch text) = ({}, .ok ()) := by
    simp [Change.ofCall, h]
  have hrest : Change.ofCalls source (.textSearch text :: after) = Change.ofCalls source after := by
    rw [Change.ofCalls, hcall, Change.andThen, Change.empty_append]
  rw [adapter_run_eq_outcome, adapter_run_eq_outcome, Source.draft, Source.draft,
    Change.ofCalls_append, Change.ofCalls_append, hrest]

section Insert

variable {session : Session}
variable (hcall : Change.ofCall source call = ({ conditions := [c] }, .ok ()))
variable (kept : session.database.IsKept) (unbounding : ∀ key, Database.bounds key c = false)
variable (before after : List Call)
include hcall kept unbounding

/-- A page that a further condition leaves is the one of the rows that meet it, if there is one. -/
theorem run_insert_unique {page page' : Page}
    (hpage : ((adapter source).run { session } (before ++ call :: after)).2 = .ok page)
    (hpage' : ((adapter source).run { session := session.meeting c } (before ++ after)).2 =
      .ok page') : page' = page := by
  rw [adapter_run_eq_outcome] at hpage hpage'
  rcases source.draft_insert hcall before after with ⟨e, he, -⟩ | ⟨d, first, second, hd, hsplit, hd'⟩
  · rw [he] at hpage'
    cases hpage'
  · rw [hd'] at hpage
    rw [hd] at hpage'
    have hshown := (Draft.outcome_eq_ok_iff.mp hpage).2
    rw [Draft.page_insert hsplit kept unbounding] at hshown
    exact Except.ok.inj ((Draft.outcome_eq_ok_iff.mp hpage').2.symm.trans hshown)

theorem run_insert_iff (bindable : IsBindable c) (short : ∀ a ∈ c, a.isTooLong = false)
    (others_short : ∀ other ∈ before ++ after, IsShort other)
    (limited : source.IsLimited (before ++ call :: after)) (page : Page) :
    ((adapter source).run { session } (before ++ call :: after)).2 = .ok page ↔
      ((adapter source).run { session := session.meeting c } (before ++ after)).2 = .ok page := by
  rw [adapter_run_eq_outcome, adapter_run_eq_outcome]
  rcases source.draft_insert hcall before after with ⟨e, he, he'⟩ | ⟨d, first, second, hd, hsplit, hd'⟩
  · rw [he, he']
  · have hlimited := limited _ hd'
    rw [hd, hd']
    dsimp only
    rw [Draft.outcome_eq_ok_iff, Draft.outcome_eq_ok_iff,
      Draft.takes_insert_iff hsplit bindable short (source.isShort_of_draft hd others_short) hlimited,
      Draft.page_insert hsplit kept unbounding]

end Insert

end Run

theorem bounds_textCondition (columns : List Column) (text : String) (key : Column) :
    Database.bounds key (textCondition columns text) = false := by
  unfold textCondition
  cases columns with
  | nil => rfl
  | cons c rest => cases rest <;> rfl

open Classical in
/-- Free text is found literally and without regard to the case of ASCII letters. A page with it is
that of the same listing over the rows that hold it. -/
theorem free_text_is_found_literally (source : Source) (session : Session) (text : String)
    (htable : session.database.table = source.table) (kept : session.database.IsKept)
    (plain : '\x00' ∉ text.toList) (short : IsShort (.textSearch text)) :
    (∀ s : List Char,
      like '\\' ((containsPattern text).toList.map Char.toLower) (s.map Char.toLower) = true ↔
        ContainsFolded text.toList s) ∧
    (source.textFields = [] → ∀ before after,
      ((adapter source).run { session } (before ++ .textSearch text :: after)).2 =
        ((adapter source).run { session } (before ++ after)).2) ∧
    ∀ columns, source.textFields ≠ [] → source.textColumns = .ok columns →
      (∀ row ∈ session.database.rows, ∀ c ∈ columns, (source.table.cell row c).IsOf .text) →
      ∃ condition : Condition,
        (∀ d : Draft, d.executed = false → d.apply source (.textSearch text) =
          ({ d with conditions := d.conditions ++ [condition] }, .ok ())) ∧
        (∀ row ∈ session.database.rows,
          condition.holds source.table row = true ↔ Mentions source.table columns text row) ∧
        let mentioning := session.withRows
          (session.database.rows.filter fun row => Mentions source.table columns text row)
        ∀ before after,
          (∀ page page',
            ((adapter source).run { session } (before ++ .textSearch text :: after)).2 = .ok page →
            ((adapter source).run { session := mentioning } (before ++ after)).2 = .ok page' →
            page' = page) ∧
          ((∀ call ∈ before ++ after, IsShort call) →
            source.IsLimited (before ++ .textSearch text :: after) → ∀ page,
            ((adapter source).run { session } (before ++ .textSearch text :: after)).2 = .ok page ↔
              ((adapter source).run { session := mentioning } (before ++ after)).2 = .ok page) := by
  refine ⟨like_lower_containsPattern_iff text, fun h => run_textSearch_of_nil h session text, ?_⟩
  intro columns declared hcolumns texts
  have hcall : Change.ofCall source (.textSearch text) =
      ({ conditions := [textCondition columns text] }, .ok ()) :=
    Change.ofCall_textSearch declared hcolumns
  have hholds : ∀ row ∈ session.database.rows,
      (textCondition columns text).holds source.table row = true ↔
        Mentions source.table columns text row :=
    fun row hrow => holds_textCondition_iff plain (texts row hrow)
  have hmentioning : session.meeting (textCondition columns text) = session.withRows
      (session.database.rows.filter fun row => Mentions source.table columns text row) := by
    unfold Session.meeting Database.meeting Session.withRows
    rw [htable]
    congr 2
    apply List.filter_congr
    intro row hrow
    rw [Bool.eq_iff_iff, hholds row hrow, decide_eq_true_eq]
  refine ⟨textCondition columns text, ?_, hholds, ?_⟩
  · intro d hopen
    rw [Draft.apply_of_open hopen, hcall]
    simp [Draft.extend]
  · intro mentioning before after
    have hshort : ∀ a ∈ textCondition columns text, a.isTooLong = false :=
      isTooLong_of_mem_textCondition short
    have hbounds := bounds_textCondition columns text
    subst mentioning
    rw [← hmentioning]
    exact ⟨fun page page' => run_insert_unique hcall kept hbounds before after,
      run_insert_iff hcall kept hbounds before after (isBindable_textCondition columns text) hshort⟩

section Articles

def sale : Database where
  table := shelf.table
  rows := [[.text "a", .text "Now 50%_OFF\\", .null], [.text "b", .null, .null],
    [.text "c", .text "now 50 % off\\", .null]]

open Classical in
/-- The marks stand for themselves, and letters for both cases. -/
theorem marks_are_found_literally :
    (∃ page, page.total = 1 ∧
      ((adapter shelf).run { session := { database := sale } }
        [.sort "id" .ascending, .textSearch "50%_off\\", .pagination none (some 5)]).2 = .ok page ∧
      ∃ rows,
        (∀ row ∈ rows, row ∈ sale.rows ∧ Mentions shelf.table [⟨"title", .text⟩] "50%_off\\" row) ∧
        ((adapter shelf).run { session := { database := sale.withRows rows } }
          [.sort "id" .ascending, .pagination none (some 5)]).2 = .ok page) ∧
    ((adapter articleSource).run { session := { database := articles } } [.textSearch "none"]).2 =
      ((adapter articleSource).run { session := { database := articles } } []).2 := by
  have kept : sale.IsKept := by
    simp [Database.IsKept, sale, Cell.IsKept]
  have texts : ∀ row ∈ sale.rows, ∀ c ∈ [(⟨"title", .text⟩ : Column)],
      (shelf.table.cell row c).IsOf .text := by
    simp only [sale, List.forall_mem_cons]
    exact ⟨⟨.text _, by simp⟩, ⟨.null _, by simp⟩, ⟨.text _, by simp⟩, by simp⟩
  obtain ⟨-, hpassed, -⟩ := free_text_is_found_literally articleSource { database := articles } "none"
    rfl (Database.isKept_ofValues _ _) (by decide) (by decide)
  obtain ⟨-, -, hfound⟩ := free_text_is_found_literally shelf { database := sale } "50%_off\\"
    rfl kept (by decide) (by decide)
  obtain ⟨condition, -, -, hruns⟩ := hfound _ (by decide) rfl texts
  have hpage : ∃ page, page.total = 1 ∧ ((adapter shelf).run { session := { database := sale } }
      [.sort "id" .ascending, .textSearch "50%_off\\", .pagination none (some 5)]).2 = .ok page := by
    rw [adapter_run_eq_outcome]
    exact ⟨_, rfl, Draft.outcome_of_readable (by decide) (Session.takes_iff.mpr ⟨rfl, rfl⟩)⟩
  obtain ⟨page, htotal, hpage⟩ := hpage
  have hmentioning := ((hruns [_] [_]).2 (by decide) (by rintro d ⟨rfl⟩; decide) page).mp hpage
  refine ⟨⟨page, htotal, hpage, _, ?_, hmentioning⟩, hpassed rfl [] []⟩
  intro row hrow
  exact ⟨(List.mem_filter.mp hrow).1, of_decide_eq_true (List.mem_filter.mp hrow).2⟩

def halfSeen : Database where
  table := shelf.table
  rows := [[.text "a", .text "x\x00Red", .null]]

/-- What stands behind a null character is not found. -/
theorem null_character_hides_free_text :
    '\x00' ∉ "red".toList ∧ ContainsFolded "red".toList "x\x00Red".toList ∧
      ((adapter shelf).run { session := { database := halfSeen } } [.textSearch "red"]).2 =
        .ok { rows := [], total := 0 } := by
  refine ⟨by decide, ⟨['x', '\x00'], [], by decide⟩, ?_⟩
  have kept : halfSeen.IsKept := by
    simp [Database.IsKept, halfSeen, Cell.IsKept]
  have hcall : Change.ofCall shelf (.textSearch "red") =
      ({ conditions := [textCondition [⟨"title", .text⟩] "red"] }, .ok ()) :=
    Change.ofCall_textSearch (by decide) rfl
  have hmeeting : ({ database := halfSeen } : Session).meeting
      (textCondition [⟨"title", .text⟩] "red") = { database := halfSeen.withRows [] } := by
    have hrows : halfSeen.rows.filter (fun row =>
        (textCondition [⟨"title", .text⟩] "red").holds halfSeen.table row) = [] := by
      simp only [halfSeen, List.filter_eq_nil_iff, List.forall_mem_singleton]
      decide
    rw [Session.meeting, Database.meeting, hrows]
  refine (run_insert_iff hcall kept (bounds_textCondition _ _) [] [] (isBindable_textCondition _ _)
    (isTooLong_of_mem_textCondition (by decide)) (by simp) (by rintro d ⟨rfl⟩; decide) _).mpr ?_
  have hpage : ((adapter shelf).run { session := { database := halfSeen.withRows [] } } []).2 =
      ({} : Draft).page shelf { database := halfSeen.withRows [] } := by
    rw [adapter_run_eq_outcome]
    exact Draft.outcome_of_takes (Session.takes_iff.mpr ⟨rfl, rfl⟩)
  rwa [page_of_selected_eq_nil rfl, ← hmeeting] at hpage

end Articles

end Catalogue.Relational
