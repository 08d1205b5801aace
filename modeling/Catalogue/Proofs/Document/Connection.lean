import Catalogue.Document.Connection
import Mathlib.Data.List.Induction
import Mathlib.Data.List.Nodup

/-!
The life of a client. Whatever is done with a connection whose driver serves it, a client is held from
the first connection to the next closing, every one is closed once at most, and none comes back after
that.
-/

namespace Catalogue.Document

/-- No call of the driver raises a fault: clients are created, and collections found and clients closed
whatever they are. -/
structure Driver.Serves (driver : Driver) : Prop where
  creates : driver.create = .ok ()
  finds (client : Client) (database name : String) : driver.collection client database name = .ok ()
  closes (client : Client) : driver.close client = .ok ()

theorem Driver.serves_serving : serving.Serves :=
  ⟨rfl, fun _ _ _ => rfl, fun _ => rfl⟩

theorem Driver.Serves.eq_serving {driver : Driver} (serves : driver.Serves) : driver = .serving := by
  obtain ⟨create, collection, close⟩ := driver
  obtain ⟨hcreate, hcollection, hclose⟩ := serves
  cases hcreate
  cases (funext hclose : close = fun _ => .ok ())
  have hcollection : collection = fun _ _ _ => .ok () :=
    funext fun client => funext fun database => funext (hcollection client database)
  cases hcollection
  rfl

namespace Connection

/-- What is done with a connection. A ping is answered or fails, as the held client has it. -/
inductive Operation where
  | connect
  | client
  | collection (name : String)
  | close
  | healthCheck (ping : Client → Except Fault Unit)

inductive Reply where
  | client (client : Client)
  /-- A collection of a client, by the names of its database and its own. -/
  | collection (client : Client) (database name : String)
  | closed
  | health (isHealthy : Bool)

def Reply.client? : Reply → Option Client
  | .client x | .collection x _ _ => some x
  | .closed | .health _ => none

def perform (driver : Driver) (c : Connection) : Operation → Connection × Outcome Reply
  | .connect => ((c.connect driver).1, (c.connect driver).2.map .client)
  | .client => (c, c.held.map .client)
  | .collection name =>
    (c, do
      let x ← c.held
      let place ← c.collection driver name
      return .collection x place.1 place.2)
  | .close => ((c.close driver).1, (c.close driver).2.map fun _ => .closed)
  | .healthCheck ping => (c, (c.checkHealth ping).map .health)

/-- The connection after operations. -/
def after (driver : Driver) (c : Connection) (ops : List Operation) : Connection :=
  ops.foldl (fun c op => (c.perform driver op).1) c

def Gives (driver : Driver) (c : Connection) (op : Operation) (x : Client) : Prop :=
  ∃ reply, (c.perform driver op).2 = .ok reply ∧ reply.client? = some x

/-- One was injected or connected to, and nothing was closed since. -/
def IsHeldAfter (injected : Bool) (ops : List Operation) : Prop :=
  (∃ before since, ops = before ++ .connect :: since ∧ .close ∉ since) ∨
    injected = true ∧ .close ∉ ops

/-- What a connection does that holds a client. Everything is about this client, and all but closing
leaves the connection as it is. -/
structure Holds (driver : Driver) (c : Connection) (x : Client) : Prop where
  connect : c.perform driver .connect = (c, .ok (.client x))
  client : c.perform driver .client = (c, .ok (.client x))
  collection (name : String) :
    c.perform driver (.collection name) = (c, .ok (.collection x c.database name))
  health (ping : Client → Except Fault Unit) :
    c.perform driver (.healthCheck ping) = (c, .ok (.health (ping x).isOk))
  close : (c.perform driver .close).2 = .ok .closed ∧
    (c.perform driver .close).1.closed = c.closed ++ [x]

/-- What a connection does that holds none. Only connecting changes it. -/
structure HoldsNone (driver : Driver) (c : Connection) : Prop where
  client : c.perform driver .client = (c, .error .notConnected)
  collection (name : String) : c.perform driver (.collection name) = (c, .error .notConnected)
  health (ping : Client → Except Fault Unit) :
    c.perform driver (.healthCheck ping) = (c, .ok (.health false))
  close : c.perform driver .close = (c, .ok .closed)

theorem checkHealth_eq (ping : Client → Except Fault Unit) (c : Connection) :
    c.checkHealth ping = .ok ((c.client.map fun x => (ping x).isOk).getD false) := by
  unfold checkHealth
  cases c.client with
  | none => rfl
  | some x =>
      simp only [Option.map_some, Option.getD_some]
      cases ping x <;> rfl

section Step

variable {driver : Driver} (serves : driver.Serves) {c : Connection} {op : Operation} {x : Client}
include serves

theorem holds_of_client (h : c.client = some x) : c.Holds driver x := by
  have health (ping : Client → Except Fault Unit) :
      c.perform driver (.healthCheck ping) = (c, .ok (.health (ping x).isOk)) := by
    rw [perform, checkHealth_eq, h]
    rfl
  cases serves.eq_serving
  obtain ⟨database, client, created, closed⟩ := c
  cases h
  exact ⟨rfl, rfl, fun _ => rfl, health, rfl, rfl⟩

omit serves in
theorem holdsNone_of_client (h : c.client = none) : c.HoldsNone driver := by
  obtain ⟨database, client, created, closed⟩ := c
  cases h
  exact ⟨rfl, fun _ => rfl, fun _ => rfl, rfl⟩

/-- What an operation can do: create a client, close the one that is held, or nothing. -/
theorem perform_cases (c : Connection) (op : Operation) :
    (op = .connect ∧ c.client = none ∧
      (c.perform driver op).1 =
        { c with client := some (.created c.created), created := c.created + 1 }) ∨
    (∃ x, op = .close ∧ c.client = some x ∧
      (c.perform driver op).1 = { c with client := none, closed := c.closed ++ [x] }) ∨
    (c.perform driver op).1 = c ∧ (op = .connect → c.client.isSome = true) ∧
      (op = .close → c.client = none) := by
  cases serves.eq_serving
  obtain ⟨database, client, created, closed⟩ := c
  cases client with
  | none =>
      cases op with
      | connect => exact .inl ⟨rfl, rfl, rfl⟩
      | close => exact .inr (.inr ⟨rfl, nofun, fun _ => rfl⟩)
      | _ => exact .inr (.inr ⟨rfl, nofun, nofun⟩)
  | some x =>
      cases op with
      | connect => exact .inr (.inr ⟨rfl, fun _ => rfl, nofun⟩)
      | close => exact .inr (.inl ⟨x, rfl, rfl, rfl⟩)
      | _ => exact .inr (.inr ⟨rfl, nofun, nofun⟩)

theorem Gives.client_eq (h : c.Gives driver op x) : (c.perform driver op).1.client = some x := by
  obtain ⟨reply, hreply, hclient⟩ := h
  cases serves.eq_serving
  obtain ⟨database, client, created, closed⟩ := c
  cases op with
  | healthCheck ping =>
      rw [perform, checkHealth_eq] at hreply
      cases hreply
      cases hclient
  | close => cases client <;> cases hreply <;> cases hclient
  | connect =>
      cases client <;>
      · cases hreply
        exact hclient
  | client =>
      cases client with
      | none => cases hreply
      | some y =>
          cases hreply
          exact hclient
  | collection name =>
      cases client with
      | none => cases hreply
      | some y =>
          cases hreply
          exact hclient

theorem eq_of_gives {y : Client} (hc : c.client = some x) (h : c.Gives driver op y) : y = x := by
  have hy := h.client_eq serves
  rcases perform_cases serves c op with ⟨-, hnone, -⟩ | ⟨z, -, -, heq⟩ | ⟨heq, -⟩
  · cases hc.symm.trans hnone
  · rw [heq] at hy
    cases hy
  · rw [heq, hc] at hy
    exact (Option.some.inj hy).symm

theorem eq_created_of_gives (hc : c.client = none) (h : c.Gives driver .connect x) :
    x = .created c.created := by
  have hx := h.client_eq serves
  rcases perform_cases serves c .connect with ⟨-, -, heq⟩ | ⟨y, hclose, -⟩ | ⟨-, hsome, -⟩
  · rw [heq] at hx
    exact (Option.some.inj hx).symm
  · cases hclose
  · have hsome := hsome rfl
    rw [hc] at hsome
    cases hsome

end Step

/-- The clients that a connection has had: those that are closed, and the one it holds. -/
def known (c : Connection) : List Client :=
  c.closed ++ c.client.toList

/-- No client is closed twice or held again, and no number of a new one is in use. -/
structure Sound (c : Connection) : Prop where
  nodup : c.known.Nodup
  fresh : ∀ n, .created n ∈ c.known → n < c.created

section Invariant

variable {driver : Driver} (serves : driver.Serves) {c : Connection}

theorem sound_start (database : String) (injected : Bool) : (start database injected).Sound := by
  cases injected with
  | false => exact ⟨List.nodup_nil, fun n hn => absurd hn List.not_mem_nil⟩
  | true => exact ⟨List.nodup_singleton _, fun n hn => by cases List.mem_singleton.mp hn⟩

include serves

theorem Sound.perform (sound : c.Sound) (op : Operation) : (c.perform driver op).1.Sound := by
  obtain ⟨nodup, fresh⟩ := sound
  unfold known at nodup fresh
  rcases perform_cases serves c op with ⟨-, hnone, heq⟩ | ⟨x, -, hsome, heq⟩ | ⟨heq, -⟩
  · rw [hnone, Option.toList_none, List.append_nil] at nodup fresh
    rw [heq]
    constructor
    · refine List.nodup_append.mpr ⟨nodup, List.nodup_singleton _, ?_⟩
      rintro a ha b hb rfl
      cases List.mem_singleton.mp hb
      exact absurd (fresh _ ha) (Nat.lt_irrefl _)
    · intro n hn
      rcases List.mem_append.mp hn with hn | hn
      · exact Nat.lt_succ_of_lt (fresh n hn)
      · cases List.mem_singleton.mp hn
        exact Nat.lt_succ_self _
  · rw [hsome, Option.toList_some] at nodup fresh
    rw [heq]
    exact ⟨by simpa [known] using nodup, by simpa [known] using fresh⟩
  · rw [heq]
    exact ⟨nodup, fresh⟩

theorem known_subset_perform (c : Connection) (op : Operation) :
    c.known ⊆ (c.perform driver op).1.known := by
  unfold known
  rcases perform_cases serves c op with ⟨-, hnone, heq⟩ | ⟨x, -, hsome, heq⟩ | ⟨heq, -⟩
  · rw [heq, hnone]
    exact List.append_subset.mpr ⟨List.subset_append_left _ _, List.nil_subset _⟩
  · rw [heq, hsome]
    exact List.subset_append_left _ _
  · rw [heq]
    exact List.Subset.refl _

theorem mem_known_of_gives {op : Operation} {x : Client} (h : c.Gives driver op x) :
    x ∈ (c.perform driver op).1.known := by
  unfold known
  rw [h.client_eq serves]
  exact List.mem_append_right _ (.head _)

end Invariant

section Run

variable {driver : Driver} (serves : driver.Serves) {c : Connection} {x : Client}

theorem after_append (driver : Driver) (c : Connection) (first second : List Operation) :
    c.after driver (first ++ second) = (c.after driver first).after driver second :=
  List.foldl_append

theorem after_cons (driver : Driver) (c : Connection) (op : Operation) (rest : List Operation) :
    c.after driver (op :: rest) = (c.perform driver op).1.after driver rest :=
  rfl

theorem after_concat (driver : Driver) (c : Connection) (ops : List Operation) (op : Operation) :
    c.after driver (ops ++ [op]) = ((c.after driver ops).perform driver op).1 :=
  after_append driver c ops [op]

section Serves

include serves

theorem Sound.after (sound : c.Sound) (ops : List Operation) : (c.after driver ops).Sound := by
  induction ops generalizing c with
  | nil => exact sound
  | cons op rest ih => exact ih (sound.perform serves op)

theorem known_subset_after (c : Connection) (ops : List Operation) :
    c.known ⊆ (c.after driver ops).known := by
  induction ops generalizing c with
  | nil => exact List.Subset.refl _
  | cons op rest ih => exact List.Subset.trans (known_subset_perform serves c op) (ih _)

theorem database_after (c : Connection) (ops : List Operation) :
    (c.after driver ops).database = c.database := by
  induction ops generalizing c with
  | nil => rfl
  | cons op rest ih =>
      rw [after_cons, ih]
      rcases perform_cases serves c op with ⟨-, -, heq⟩ | ⟨x, -, -, heq⟩ | ⟨heq, -⟩ <;> rw [heq]

theorem after_of_client (hc : c.client = some x) {ops : List Operation} (h : .close ∉ ops) :
    c.after driver ops = c := by
  induction ops with
  | nil => rfl
  | cons op rest ih =>
      obtain ⟨hop, hrest⟩ := not_or.mp (mt List.mem_cons.mpr h)
      rcases perform_cases serves c op with ⟨-, hnone, -⟩ | ⟨y, rfl, -⟩ | ⟨heq, -⟩
      · cases hc.symm.trans hnone
      · exact absurd rfl hop
      · rw [after_cons, heq, ih hrest]

theorem after_of_no_client (hc : c.client = none) {ops : List Operation} (h : .connect ∉ ops) :
    c.after driver ops = c := by
  induction ops with
  | nil => rfl
  | cons op rest ih =>
      obtain ⟨hop, hrest⟩ := not_or.mp (mt List.mem_cons.mpr h)
      rcases perform_cases serves c op with ⟨rfl, -⟩ | ⟨y, -, hsome, -⟩ | ⟨heq, -⟩
      · exact absurd rfl hop
      · cases hc.symm.trans hsome
      · rw [after_cons, heq, ih hrest]

theorem client_perform_close (c : Connection) : (c.perform driver .close).1.client = none := by
  rcases perform_cases serves c .close with ⟨h, -⟩ | ⟨x, -, -, heq⟩ | ⟨heq, -, hnone⟩
  · cases h
  · rw [heq]
  · rw [heq]
    exact hnone rfl

end Serves

/-- A place in a list that ends in an operation is a place before the end, or the end. -/
theorem exists_split_concat_iff {P : List Operation → List Operation → Prop} {ops : List Operation}
    {op o : Operation} :
    (∃ before since, ops ++ [op] = before ++ o :: since ∧ P before since) ↔
      (∃ before since, ops = before ++ o :: since ∧ P before (since ++ [op])) ∨
        op = o ∧ P ops [] := by
  constructor
  · rintro ⟨before, since, heq, hP⟩
    rcases List.eq_nil_or_concat' since with rfl | ⟨since, last, rfl⟩
    · obtain ⟨rfl, rfl⟩ := List.append_inj' heq rfl |>.imp_right List.singleton_inj.mp
      exact .inr ⟨rfl, hP⟩
    · rw [← List.cons_append, ← List.append_assoc] at heq
      obtain ⟨rfl, hlast⟩ := List.append_inj' heq rfl
      cases hlast
      exact .inl ⟨before, since, rfl, hP⟩
  · rintro (⟨before, since, rfl, hP⟩ | ⟨rfl, hP⟩)
    · exact ⟨before, since ++ [op], by simp, hP⟩
    · exact ⟨ops, [], rfl, hP⟩

theorem isHeldAfter_concat_iff {injected : Bool} {ops : List Operation} {op : Operation} :
    IsHeldAfter injected (ops ++ [op]) ↔
      op = .connect ∨ op ≠ .close ∧ IsHeldAfter injected ops := by
  unfold IsHeldAfter
  have hclose : ∀ since : List Operation, .close ∉ since ++ [op] ↔ .close ∉ since ∧ op ≠ .close := by
    intro since
    rw [List.mem_append, List.mem_singleton, not_or, eq_comm (a := Operation.close)]
  rw [exists_split_concat_iff (P := fun _ since => .close ∉ since)]
  simp only [hclose]
  constructor
  · rintro ((⟨before, since, rfl, hsince, hop⟩ | ⟨rfl, -⟩) | ⟨rfl, hops, hop⟩)
    · exact .inr ⟨hop, .inl ⟨before, since, rfl, hsince⟩⟩
    · exact .inl rfl
    · exact .inr ⟨hop, .inr ⟨rfl, hops⟩⟩
  · rintro (rfl | ⟨hop, ⟨before, since, rfl, hsince⟩ | ⟨rfl, hops⟩⟩)
    · exact .inl (.inr ⟨rfl, List.not_mem_nil⟩)
    · exact .inl (.inl ⟨before, since, rfl, hsince, hop⟩)
    · exact .inr ⟨rfl, hops, hop⟩

include serves

theorem isSome_client_after_iff (database : String) (injected : Bool) (ops : List Operation) :
    ((start database injected).after driver ops).client.isSome = true ↔ IsHeldAfter injected ops := by
  induction ops using List.reverseRecOn with
  | nil => cases injected <;> simp [start, after, IsHeldAfter]
  | append_singleton ops op ih =>
      rw [after_concat, isHeldAfter_concat_iff, ← ih]
      generalize (start database injected).after driver ops = c
      rcases perform_cases serves c op with ⟨rfl, -, heq⟩ | ⟨x, rfl, -, heq⟩ | ⟨heq, hconnect, hclose⟩
      · rw [heq]
        exact iff_of_true rfl (.inl rfl)
      · rw [heq]
        refine iff_of_false Bool.false_ne_true ?_
        rintro (h | ⟨h, -⟩)
        · cases h
        · exact h rfl
      · rw [heq]
        constructor
        · intro hsome
          refine .inr ⟨?_, hsome⟩
          intro hop
          rw [hclose hop] at hsome
          cases hsome
        · rintro (hop | ⟨-, hsome⟩)
          · exact hconnect hop
          · exact hsome

theorem mem_closed_after_iff (hc : c.closed = []) {ops : List Operation} :
    x ∈ (c.after driver ops).closed ↔
      ∃ before since, ops = before ++ .close :: since ∧ (c.after driver before).client = some x := by
  induction ops using List.reverseRecOn with
  | nil =>
      change x ∈ c.closed ↔ _
      rw [hc]
      simp
  | append_singleton ops op ih =>
      rw [after_concat, exists_split_concat_iff
        (P := fun before _ => (c.after driver before).client = some x), ← ih]
      rcases perform_cases serves (c.after driver ops) op with
        ⟨rfl, -, heq⟩ | ⟨y, rfl, hy, heq⟩ | ⟨heq, -, hclose⟩
      · rw [heq]
        simp
      · rw [heq, hy]
        simp [eq_comm]
      · rw [heq, or_iff_left]
        rintro ⟨hop, hx⟩
        cases (hclose hop).symm.trans hx

end Run

/-- The life of a client over every run of operations, whether one is injected or not. One is held just
where one was injected or connected to and nothing was closed since. A client that was closed never
comes back. -/
theorem client_lives_until_closed {driver : Driver} (serves : driver.Serves) (database : String)
    (injected : Bool) :
    (∀ ops, ((start database injected).after driver ops).database = database ∧
      (IsHeldAfter injected ops → ∃ x, ((start database injected).after driver ops).Holds driver x) ∧
      (¬IsHeldAfter injected ops → ((start database injected).after driver ops).HoldsNone driver)) ∧
    (∀ before op since op' x y, .close ∉ since →
      ((start database injected).after driver before).Gives driver op x →
      ((start database injected).after driver (before ++ op :: since)).Gives driver op' y → y = x) ∧
    (∀ before since x, .connect ∉ since →
      ((start database injected).after driver (before ++ .close :: since)).Gives driver .connect x →
      x ≠ .injected ∧ ∀ earlier op rest y, before ++ .close :: since = earlier ++ op :: rest →
        ((start database injected).after driver earlier).Gives driver op y → y ≠ x) ∧
    ∀ ops, ((start database injected).after driver ops).closed.Nodup ∧
      ∀ x, x ∈ ((start database injected).after driver ops).closed ↔ ∃ before since,
        ops = before ++ .close :: since ∧
          ((start database injected).after driver before).client = some x := by
  have sound : ∀ ops, ((start database injected).after driver ops).Sound :=
    (sound_start database injected).after serves
  refine ⟨fun ops => ⟨database_after serves _ ops, ?_, ?_⟩, ?_, ?_, fun ops => ⟨?_, ?_⟩⟩
  · intro hheld
    rw [← isSome_client_after_iff serves database] at hheld
    obtain ⟨x, hx⟩ := Option.isSome_iff_exists.mp hheld
    exact ⟨x, holds_of_client serves hx⟩
  · intro hnone
    rw [← isSome_client_after_iff serves database, Option.not_isSome_iff_eq_none] at hnone
    exact holdsNone_of_client hnone
  · intro before op since op' x y hsince hx hy
    rw [after_append, after_cons, after_of_client serves (hx.client_eq serves) hsince] at hy
    exact eq_of_gives serves (hx.client_eq serves) hy
  · intro before since x hsince hx
    have hclosed := client_perform_close serves ((start database injected).after driver before)
    have hstays := after_of_no_client serves hclosed hsince
    have hnone :
        ((start database injected).after driver (before ++ .close :: since)).client = none := by
      rw [after_append, after_cons, hstays]
      exact hclosed
    have hcreated := eq_created_of_gives serves hnone hx
    refine ⟨?_, ?_⟩
    · rw [hcreated]
      exact Client.noConfusion
    · intro earlier op rest y hsplit hy
      have hknown :
          y ∈ ((start database injected).after driver (before ++ .close :: since)).known := by
        rw [hsplit, after_append, after_cons]
        exact known_subset_after serves _ rest (mem_known_of_gives serves hy)
      rintro rfl
      rw [hcreated] at hknown
      exact absurd ((sound _).fresh _ hknown) (Nat.lt_irrefl _)
  · exact (List.nodup_append.mp (sound ops).nodup).1
  · intro x
    exact mem_closed_after_iff serves (by cases injected <;> rfl)

/-- An injected client is closed once, and connecting again creates one that was not seen before. -/
theorem injected_client_is_replaced :
    let c := (start "shop" true).after .serving [.client, .close, .connect, .close, .close]
    c.closed = [.injected, .created 0] ∧ c.closed.Nodup ∧ Client.created 0 ≠ .injected ∧
      c.HoldsNone .serving := by
  obtain ⟨hheld, -, hfresh, hclosed⟩ :=
    client_lives_until_closed Driver.serves_serving "shop" true
  refine ⟨rfl, (hclosed _).1, ?_, (hheld _).2.2 ?_⟩
  · exact (hfresh [.client] [] (.created 0) List.not_mem_nil ⟨_, rfl, rfl⟩).1
  · rw [← isSome_client_after_iff Driver.serves_serving "shop"]
    exact Bool.false_ne_true

end Connection

end Catalogue.Document
