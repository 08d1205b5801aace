import Catalogue.Proofs.Relational.Deletion
import Mathlib.Data.List.Forall2

/-!
The wording of what a listing sends. The values that calls hand over reach the database as parameters
only: calls that differ in nothing but these values send statements of one text.
-/

namespace Catalogue

/-- Values of one sort. Only integers, floating-point numbers, texts and timestamps may differ. -/
inductive Value.SameSort : Value → Value → Prop
  | refl (v : Value) : SameSort v v
  | int (m n : Int) : SameSort (.int m) (.int n)
  | float (x y : Number.Binary64) : SameSort (.float x) (.float y)
  | text (s t : String) : SameSort (.text s) (.text t)
  | stamp (s t : Calendar.Stamp) : SameSort (.stamp s) (.stamp t)

/-- Calls of one shape: the same method on the same field, with values of the same sorts. Patterns,
free texts and seeds may differ, and the bounds of a page as far as they are given. -/
inductive Call.SameShape : Call → Call → Prop
  | equality (field : String) {v w : Value} (h : v.SameSort w) :
      SameShape (.equality field v) (.equality field w)
  | negatedEquality (field : String) {v w : Value} (h : v.SameSort w) :
      SameShape (.negatedEquality field v) (.negatedEquality field w)
  | range (field : String) {lower upper lower' upper' : Value} (hlower : lower.SameSort lower')
      (hupper : upper.SameSort upper') :
      SameShape (.range field lower upper) (.range field lower' upper')
  | membership (field : String) {vs ws : List Value} (h : List.Forall₂ Value.SameSort vs ws) :
      SameShape (.membership field vs) (.membership field ws)
  | pattern (field : String) (p q : Wildcard) : SameShape (.pattern field p) (.pattern field q)
  | absence (field : String) : SameShape (.absence field) (.absence field)
  | existence (field : String) : SameShape (.existence field) (.existence field)
  | sort (field : String) (direction : Direction) :
      SameShape (.sort field direction) (.sort field direction)
  | randomSort (seed seed' : String) : SameShape (.randomSort seed) (.randomSort seed')
  | pagination {offset limit offset' limit' : Option Int} (hoffset : offset.isNone = offset'.isNone)
      (hlimit : limit.isNone = limit'.isNone) :
      SameShape (.pagination offset limit) (.pagination offset' limit')
  | textSearch (text text' : String) : SameShape (.textSearch text) (.textSearch text')

/-- Makes calls in order, whether or not one of them fails. -/
def Adapter.applyEach {σ : Type} (a : Adapter σ) (s : σ) (calls : List Call) : σ :=
  calls.foldl (fun s call => (a.apply s call).1) s

namespace Relational

/-- The words of conditions: for each of them the texts of its alternatives. -/
def words (t : Table) (conditions : List Condition) : List (List String) :=
  conditions.map fun c => c.map (Atom.text t)

@[simp] theorem words_append (t : Table) (first second : List Condition) :
    words t (first ++ second) = words t first ++ words t second :=
  List.map_append

/-- The text of alternatives of which each has been written. -/
def alternativesText (alone : Bool) (alternatives : List String) : String :=
  let body := " OR ".intercalate alternatives
  if alone || alternatives.length ≤ 1 then body else "(" ++ body ++ ")"

theorem Condition.text_eq (t : Table) (alone : Bool) (c : Condition) :
    c.text t alone = alternativesText alone (c.map (Atom.text t)) := by
  simp only [Condition.text, alternativesText, List.length_map]

theorem conditionsText_eq (t : Table) (conditions : List Condition) :
    conditionsText t conditions = " AND ".intercalate
      ((words t conditions).map (alternativesText ((words t conditions).length ≤ 1))) := by
  simp only [conditionsText, words, List.length_map, List.map_map]
  congr 1
  apply List.map_congr_left
  intro c _
  exact Condition.text_eq t _ c

theorem whereText_congr {t : Table} {conditions conditions' : List Condition}
    (h : words t conditions = words t conditions') :
    whereText t conditions = whereText t conditions' := by
  have hempty : conditions.isEmpty = conditions'.isEmpty := by
    have hlength := congrArg List.isEmpty h
    simpa only [words, List.isEmpty_map] using hlength
  unfold whereText
  rw [hempty, conditionsText_eq, conditionsText_eq, h]

/-- Does a page have these bounds at all? -/
def givenBounds (page : Option Int × Option Int) : Bool × Bool :=
  (page.1.isNone, page.2.isNone)

namespace Change

/-- Changes that read the same in statements. -/
structure ReadsAs (t : Table) (c c' : Change) : Prop where
  conditions : words t c.conditions = words t c'.conditions
  order : c.order = c'.order
  page : c.page.map givenBounds = c'.page.map givenBounds

variable {t : Table} {source : Source}

theorem ReadsAs.refl (c : Change) : ReadsAs t c c :=
  ⟨rfl, rfl, rfl⟩

theorem ReadsAs.append {a b a' b' : Change} (h : ReadsAs t a a') (h' : ReadsAs t b b') :
    ReadsAs t (a.append b) (a'.append b') where
  conditions := by simp [Change.append, h.conditions, h'.conditions]
  order := by simp [Change.append, h.order, h'.order]
  page := by simp [Change.append, Option.map_or, h.page, h'.page]

theorem readsAs_onColumn (column : Outcome Column) {f g : Column → Condition}
    (h : ∀ c, (f c).map (Atom.text t) = (g c).map (Atom.text t)) :
    ReadsAs t (onColumn column fun c => { conditions := [f c] }).1
      (onColumn column fun c => { conditions := [g c] }).1 := by
  cases column with
  | error e => exact .refl _
  | ok c => exact ⟨by simp [onColumn, words, h c], rfl, rfl⟩

theorem text_equalTo (c : Column) {v w : Value} (h : v.SameSort w) :
    (Condition.equalTo c v).text t = (Condition.equalTo c w).text t := by
  cases h <;> rfl

theorem text_differentFrom (c : Column) {v w : Value} (h : v.SameSort w) :
    (Condition.differentFrom c v).text t = (Condition.differentFrom c w).text t := by
  cases h <;> rfl

theorem text_isAmong (c : Column) {vs ws : List Value} (h : List.Forall₂ Value.SameSort vs ws) :
    (Atom.isAmong c vs).text t = (Atom.isAmong c ws).text t := by
  have hlength := h.length_eq
  cases h with
  | nil => rfl
  | cons => simp only [Atom.text, List.map_const', hlength, Atom.column]

theorem readsAs_ofBound (c : Column) (comparison : Comparison) {v w : Value} (h : v.SameSort w) :
    ReadsAs t (ofBound c comparison v).1 (ofBound c comparison w).1 ∧
      (ofBound c comparison v).2 = (ofBound c comparison w).2 := by
  cases h with
  | refl => exact ⟨.refl _, rfl⟩
  | _ => exact ⟨⟨rfl, rfl, rfl⟩, rfl⟩

theorem readsAs_andThen {first first' second second' : Change × Outcome Unit}
    (h : ReadsAs t first.1 first'.1) (houtcome : first.2 = first'.2)
    (h' : ReadsAs t second.1 second'.1) :
    ReadsAs t (andThen first second).1 (andThen first' second').1 := by
  obtain ⟨c, outcome⟩ := first
  obtain ⟨c', outcome'⟩ := first'
  dsimp only at houtcome
  subst houtcome
  cases outcome with
  | error e => exact h
  | ok _ => exact h.append h'

theorem readsAs_ofCall {call call' : Call} (h : call.SameShape call') :
    ReadsAs t (ofCall source call).1 (ofCall source call').1 := by
  cases h with
  | equality field h =>
      apply readsAs_onColumn
      intro c
      simp [text_equalTo c h]
  | negatedEquality field h =>
      apply readsAs_onColumn
      intro c
      simp [text_differentFrom c h]
  | range field hlower hupper =>
      simp only [ofCall]
      cases source.column field with
      | error e => exact .refl _
      | ok c =>
          obtain ⟨hleast, houtcome⟩ := readsAs_ofBound (t := t) c .atLeast hlower
          obtain ⟨hmost, -⟩ := readsAs_ofBound (t := t) c .atMost hupper
          exact readsAs_andThen hleast houtcome hmost
  | membership field h =>
      apply readsAs_onColumn
      intro c
      simp [text_isAmong c h]
  | pattern field p q =>
      apply readsAs_onColumn
      intro c
      rfl
  | absence field => exact .refl _
  | existence field => exact .refl _
  | sort field direction => exact .refl _
  | randomSort seed seed' => exact .refl _
  | pagination hoffset hlimit => exact ⟨rfl, rfl, by simp [ofCall, givenBounds, hoffset, hlimit]⟩
  | textSearch text text' =>
      simp only [ofCall]
      split
      · exact .refl _
      · cases source.textColumns with
        | error e => exact .refl _
        | ok cs =>
            refine ⟨?_, rfl, rfl⟩
            simp [words, Atom.text, Atom.column]

/-- What calls add to an open draft, each of them made whether or not one before it fails. -/
def ofEach (source : Source) (calls : List Call) : Change :=
  calls.foldr (fun call rest => (ofCall source call).1.append rest) {}

theorem readsAs_ofEach {calls calls' : List Call} (h : List.Forall₂ Call.SameShape calls calls') :
    ReadsAs t (ofEach source calls) (ofEach source calls') := by
  induction h with
  | nil => exact .refl _
  | cons hcall _ ih => exact (readsAs_ofCall hcall).append ih

end Change

/-- The texts of the statements that a draft comes to: the count and the page. -/
def Draft.texts (source : Source) (t : Table) (d : Draft) : List String :=
  [(Statement.count (d.allConditions source)).text t, (Statement.page (d.selection source)).text t]

theorem Change.ReadsAs.pageText_extend {t : Table} {c c' : Change} (h : ReadsAs t c c') :
    pageText (({} : Draft).extend c).limit (({} : Draft).extend c).offset =
      pageText (({} : Draft).extend c').limit (({} : Draft).extend c').offset := by
  have hgiven := h.page
  cases hc : c.page with
  | none =>
      rw [hc] at hgiven
      have hc' : c'.page = none := by simpa using hgiven.symm
      simp [Draft.extend, hc, hc']
  | some page =>
      rw [hc] at hgiven
      obtain ⟨page', hc', hbounds⟩ := Option.map_eq_some_iff.mp hgiven.symm
      obtain ⟨hoffset, hlimit⟩ := Prod.mk.inj hbounds
      simp [Draft.extend, hc, hc', pageText, hoffset, hlimit]

/-- Drafts of changes that read the same come to statements of the same texts. -/
theorem Change.ReadsAs.texts_extend {t : Table} {source : Source} {c c' : Change}
    (h : ReadsAs t c c') :
    (({} : Draft).extend c).texts source t = (({} : Draft).extend c').texts source t := by
  have hwhere : whereText t ((({} : Draft).extend c).allConditions source) =
      whereText t ((({} : Draft).extend c').allConditions source) := by
    apply whereText_congr
    simp [Draft.allConditions, Draft.extend, h.conditions]
  have horder : (({} : Draft).extend c).fullOrder source =
      (({} : Draft).extend c').fullOrder source := by
    simp [Draft.fullOrder, Draft.extend, h.order]
  have htexts (d : Draft) : d.texts source t =
      ["SELECT count(*) AS count_1 \nFROM " ++ identifier t.name ++
          whereText t (d.allConditions source),
        selectText t ++ whereText t (d.allConditions source) ++ orderText t (d.fullOrder source) ++
          pageText d.limit d.offset] := rfl
  rw [htexts, htexts, hwhere, horder, h.pageText_extend]

theorem adapter_applyEach {source : Source} {s : State} (h : s.draft.executed = false)
    (calls : List Call) :
    (adapter source).applyEach s calls =
      { s with draft := s.draft.extend (Change.ofEach source calls) } := by
  induction calls generalizing s with
  | nil => simp [Adapter.applyEach, Change.ofEach]
  | cons call rest ih =>
      have happly : ((adapter source).apply s call).1 =
          { s with draft := s.draft.extend (Change.ofCall source call).1 } := by
        simp only [adapter]
        rw [Draft.apply_of_open h]
      have hcons : (adapter source).applyEach s (call :: rest) =
          (adapter source).applyEach ((adapter source).apply s call).1 rest := rfl
      have hchange : Change.ofEach source (call :: rest) =
          (Change.ofCall source call).1.append (Change.ofEach source rest) := rfl
      rw [hcons, happly, ih (by simpa using h), hchange, Draft.extend_append]

def Session.texts (s : Session) : List String :=
  s.log.map Sent.text

/-- A statement is sent at most once, and once if it is answered. -/
theorem Session.texts_send (s : Session) (statement : Statement) :
    ∃ sent, sent <+: [statement.text s.database.table] ∧
      (s.send statement).1.texts = s.texts ++ sent ∧
      ∀ result, (s.send statement).2 = .ok result → sent = [statement.text s.database.table] := by
  unfold send
  split
  · exact ⟨[], List.nil_prefix, by simp [texts], by simp⟩
  · dsimp only
    cases statement.parameters? with
    | none => exact ⟨[], List.nil_prefix, by simp [texts], by simp⟩
    | some parameters =>
        refine ⟨_, List.prefix_refl _, ?_, fun _ _ => rfl⟩
        dsimp only
        cases faultOf s.database statement parameters with
        | some fault => simp [texts]
        | none => simp [texts]

/-- An execution sends its two statements in turn and no other: both if it answers, and only the
first ones otherwise. -/
theorem texts_execute (source : Source) {s : State} (h : s.draft.executed = false) :
    ∃ sent, sent <+: s.draft.texts source s.session.database.table ∧
      (State.execute source s).1.session.texts = s.session.texts ++ sent ∧
      ∀ page, (State.execute source s).2 = .ok page →
        sent = s.draft.texts source s.session.database.table := by
  rw [execute_of_open h]
  unfold Draft.texts
  generalize s.draft.allConditions source = conditions
  generalize s.draft.selection source = selection
  have hdatabase : (s.session.send (.count conditions)).1.database = s.session.database :=
    Session.send_database rfl
  obtain ⟨sent, hsent, hlog, hanswered⟩ := s.session.texts_send (.count conditions)
  cases hcount : s.session.send (.count conditions) with
  | mk session outcome =>
      rw [hcount] at hdatabase hlog hanswered
      cases outcome with
      | error fault => exact ⟨sent, hsent.trans (List.prefix_append _ _), hlog, by simp⟩
      | ok count =>
          -- The count is in the log, so the page is sent on top of it or not at all.
          dsimp only at hdatabase hlog ⊢
          rw [hanswered count rfl] at hlog
          obtain ⟨later, hlater, hlog', hanswered'⟩ := session.texts_send (.page selection)
          rw [hdatabase] at hlater hanswered'
          refine ⟨_ :: later, List.cons_prefix_cons.mpr ⟨rfl, hlater⟩, ?_⟩
          have hboth : (session.send (.page selection)).1.texts = s.session.texts ++
              (Statement.count conditions).text s.session.database.table :: later := by
            rw [hlog', hlog, List.append_assoc]
            rfl
          cases hpage : session.send (.page selection) with
          | mk session' outcome' =>
              rw [hpage] at hboth hanswered'
              cases outcome' with
              | error fault => exact ⟨hboth, by simp⟩
              | ok rows =>
                  rw [hanswered' rows rfl] at hboth ⊢
                  dsimp only
                  split
                  · split <;> exact ⟨hboth, fun _ _ => rfl⟩
                  · exact ⟨hboth, fun _ _ => rfl⟩

/-- After calls, each of them made whether or not one before it fails, an execution sends a count and a
page of these texts and nothing else: both if it answers, and else as far as it comes. -/
structure Sends (source : Source) (session : Session) (calls : List Call) (count page : String) :
    Prop where
  drafted : ((adapter source).applyEach { session } calls).draft.texts source
    session.database.table = [count, page]
  sent : ∃ sent, sent <+: [count, page] ∧
    ((adapter source).execute ((adapter source).applyEach { session } calls)).1.session.texts =
      session.texts ++ sent ∧
    ∀ answer, ((adapter source).execute ((adapter source).applyEach { session } calls)).2 =
      .ok answer → sent = [count, page]

theorem exists_sends (source : Source) (session : Session) (calls : List Call) :
    ∃ count page, Sends source session calls count page := by
  have fresh : ((adapter source).applyEach { session } calls).draft.executed = false := by
    rw [adapter_applyEach rfl]
    rfl
  have hsession : ((adapter source).applyEach { session } calls).session = session := by
    rw [adapter_applyEach rfl]
  have hsent := texts_execute source fresh
  rw [hsession] at hsent
  exact ⟨_, _, rfl, hsent⟩

/-- No value that calls hand over reaches the text of a statement. Calls of one shape send counts of
one text and pages of one text, over tables of one make, whatever rows these hold; they differ in
parameters only. -/
theorem values_stay_out_of_statement_texts (source : Source) {calls calls' : List Call}
    (alike : List.Forall₂ Call.SameShape calls calls') {session session' : Session}
    (same : session.database.table = session'.database.table) :
    ∃ count page, Sends source session calls count page ∧
      Sends source session' calls' count page := by
  obtain ⟨count, page, hsends⟩ := exists_sends source session calls
  obtain ⟨count', page', hsends'⟩ := exists_sends source session' calls'
  have htexts : [count, page] = [count', page'] := by
    rw [← hsends.drafted, ← hsends'.drafted, same, adapter_applyEach rfl, adapter_applyEach rfl]
    exact (Change.readsAs_ofEach alike).texts_extend
  cases htexts
  exact ⟨count, page, hsends, hsends'⟩

section Articles

def shelfCalls (text : String) (limit : Int) : List Call :=
  [.pattern "title" { text, leading := true, trailing := false },
    .membership "id" [.text text, .text "b"], .range "deleted_on" .null (.text text),
    .pagination none (some limit), .textSearch text]

theorem quotes_stay_out_of_statement_texts :
    List.Forall₂ Call.SameShape (shelfCalls "a" 1) (shelfCalls "' OR 1=1 --" (-1)) ∧
      ∃ count page, Sends shelf { database := shelved } (shelfCalls "a" 1) count page ∧
        Sends shelf { database := shelved } (shelfCalls "' OR 1=1 --" (-1)) count page ∧
        ((adapter shelf).execute ((adapter shelf).applyEach { session := { database := shelved } }
          (shelfCalls "' OR 1=1 --" (-1)))).1.session.texts = [count, page] ∧
        count = "SELECT count(*) AS count_1 \nFROM articles \nWHERE " ++
          "articles.title LIKE ? ESCAPE '\\' AND articles.id IN (?, ?) AND " ++
          "articles.deleted_on <= ? AND lower(articles.title) LIKE lower(?) ESCAPE '\\' AND " ++
          "articles.deleted_on IS NULL" := by
  have alike : List.Forall₂ Call.SameShape (shelfCalls "a" 1) (shelfCalls "' OR 1=1 --" (-1)) :=
    .cons (.pattern _ _ _) (.cons (.membership _ (.cons (.text _ _) (.cons (.refl _) .nil)))
      (.cons (.range _ (.refl _) (.text _ _)) (.cons (.pagination rfl rfl)
        (.cons (.textSearch _ _) .nil))))
  have same : ({ database := shelved } : Session).database.table =
      ({ database := shelved } : Session).database.table := rfl
  obtain ⟨count, page, hsends, hsends'⟩ := values_stay_out_of_statement_texts shelf alike same
  refine ⟨alike, count, page, hsends, hsends', ?_, ?_⟩
  · obtain ⟨sent, -, htexts, hanswered⟩ := hsends'.sent
    have hanswer := Draft.outcome_of_readable isReadable_shelved
      (Session.takes_iff.mpr ⟨rfl, rfl⟩ : ({ database := shelved } : Session).Takes
        (((adapter shelf).applyEach { session := { database := shelved } }
          (shelfCalls "' OR 1=1 --" (-1))).draft.selection shelf))
    rw [htexts, hanswered _ ((execute_eq_outcome rfl).trans hanswer)]
    rfl
  · have hcount := (List.cons.inj hsends.drafted).1
    rw [← hcount]
    decide +kernel

end Articles

end Relational

end Catalogue
