import Catalogue.Proofs.Query.Bounds

/-!
The ways in which a parameter can be carried: a filter or an order as JSON text, in octets or
decoded, and a page bound as an integer or as its numeral. Requests do not depend on them.
-/

namespace Catalogue

namespace Json

theorem opens_of_value {fuel room : Nat} {s rest : List Char} {v : Value}
    (h : value fuel room s = .ok (v, rest)) (container : v.IsContainer) :
    ∃ c tail, s = c :: tail ∧ Text.isBlank c = false := by
  cases fuel with
  | zero => cases h
  | succ fuel =>
      unfold value at h
      split at h
      · exact ⟨'"', _, rfl, by decide⟩
      · exact ⟨'[', _, rfl, by decide⟩
      · exact ⟨'{', _, rfl, by decide⟩
      · rw [orMalformed_eq_ok_iff] at h
        cases hword : word? s with
        | some found =>
            rw [hword] at h
            cases h
            rcases cases_of_word hword with rfl | ⟨b, rfl⟩ | ⟨x, rfl⟩ <;> cases container
        | none =>
            rw [hword] at h
            rcases cases_of_number h with ⟨x, rfl⟩ | ⟨n, rfl, -⟩ <;> cases container

theorem isAllBlank_of_read {room : Nat} {s : String} {v : Value} (h : read room s = .ok v)
    (container : v.IsContainer) : Text.isAllBlank s = false := by
  obtain ⟨⟨w, rest⟩, hvalue, h⟩ := bind_eq_ok_iff.mp h
  dsimp only at h
  split at h
  · cases h
    obtain ⟨c, tail, hs, hc⟩ := opens_of_value hvalue container
    have hmem : c ∈ s.toList := by
      have hsuffix : skipSpace s.toList <:+ s.toList := List.dropWhile_suffix _
      exact hsuffix.subset (by rw [hs]; exact .head _)
    by_contra hblank
    rw [Bool.not_eq_false, Text.isAllBlank, List.all_eq_true] at hblank
    exact Bool.noConfusion (hc.symm.trans (hblank c hmem))
  · cases h

section Brackets

theorem skipSpace_replicate (n : Nat) :
    skipSpace (List.replicate n '[') = List.replicate n '[' := by
  cases n <;> rfl

theorem value_succ_bracket (fuel room n : Nat) :
    value (fuel + 1) (room + 1) (List.replicate (n + 1) '[') =
      (items fuel room (List.replicate n '[')).map fun (vs, rest) => (.list vs, rest) := by
  cases n <;> rfl

/-- Opening brackets alone are never read. -/
theorem value_replicate_ne_ok {fuel room : Nat} (n : Nat) (x : Value × List Char) :
    value fuel room (List.replicate n '[') ≠ .ok x := by
  induction n generalizing fuel room x with
  | zero => cases fuel <;> exact nofun
  | succ n ih =>
      cases fuel with
      | zero => exact nofun
      | succ fuel =>
          cases room with
          | zero => exact nofun
          | succ room =>
              rw [value_succ_bracket]
              cases fuel with
              | zero => exact nofun
              | succ fuel =>
                  rw [items]
                  cases hitem : value fuel room (List.replicate n '[') with
                  | error e => exact nofun
                  | ok y => exact absurd hitem (ih y)

/-- They use up the room. -/
theorem value_replicate {fuel room n : Nat} (hfuel : 2 * room < fuel) (hroom : room < n) :
    value fuel room (List.replicate n '[') = .error .tooDeep := by
  induction room generalizing fuel n with
  | zero =>
      obtain ⟨fuel, rfl⟩ : ∃ m, fuel = m + 1 := ⟨fuel - 1, by omega⟩
      obtain ⟨n, rfl⟩ : ∃ m, n = m + 1 := ⟨n - 1, by omega⟩
      rfl
  | succ room ih =>
      obtain ⟨fuel, rfl⟩ : ∃ m, fuel = m + 2 := ⟨fuel - 2, by omega⟩
      obtain ⟨n, rfl⟩ : ∃ m, n = m + 1 := ⟨n - 1, by omega⟩
      rw [value_succ_bracket, items, ih (by omega) (by omega)]
      rfl

variable (room n : Nat)

theorem read_replicate_ne_ok (v : Value) : read room (.ofList (List.replicate n '[')) ≠ .ok v := by
  intro h
  obtain ⟨x, hvalue, -⟩ := bind_eq_ok_iff.mp h
  rw [String.toList_ofList, skipSpace_replicate] at hvalue
  exact value_replicate_ne_ok n x hvalue

theorem read_replicate (h : room < n) :
    read room (.ofList (List.replicate n '[')) = .error .tooDeep := by
  unfold read
  dsimp only
  rw [String.toList_ofList, skipSpace_replicate, List.length_replicate,
    value_replicate (by omega) h]
  rfl

end Brackets

end Json

namespace Request

/-- The ways to carry a JSON text: as it is, in octets, or decoded with room enough, where that gives
an object or a list that is not nested too deep. -/
inductive Carries (s : String) : Value → Prop
  | text : Carries s (.text s)
  | octets : Carries s (.bytes s.toUTF8)
  | decoded {v : Value} {room : Nat} (read : Json.read room s = .ok v) (container : v.IsContainer)
      (nested : Json.IsNestedAtMost Json.maxNesting s) : Carries s v

/-- The ways to carry an integer: as it is, or as its numeral with any blanks around it. -/
inductive Counts (n : Int) : Value → Prop
  | integer : Counts n (.int n)
  | numeral {s : String} (left right : List Char) (text : s.toList = left ++ Text.signed n ++ right)
      (hleft : ∀ c ∈ left, Text.isBlank c = true) (hright : ∀ c ∈ right, Text.isBlank c = true) :
      Counts n (.text s)

/-- Two parameters are the same, or carry the same text. -/
def SameContainer (v w : Value) : Prop :=
  v = w ∨ ∃ s, Carries s v ∧ Carries s w

def SameInteger (v w : Value) : Prop :=
  v = w ∨ ∃ n : Int, n.natAbs < 10 ^ Text.maxDigits ∧ Counts n v ∧ Counts n w

/-- Raw parameters that differ at most in how they are carried. -/
structure CarriedAlike (raw raw' : RawRequest) : Prop where
  limit : SameInteger raw.limit raw'.limit
  offset : SameInteger raw.offset raw'.offset
  filter : SameContainer raw.filter raw'.filter
  order : SameContainer raw.order raw'.order
  text : raw.text = raw'.text

theorem Counts.gives {n : Int} {v : Value} (h : Counts n v)
    (short : n.natAbs < 10 ^ Text.maxDigits) : Gives v (some n) := by
  cases h with
  | integer => exact .integer n
  | numeral left right text hleft hright =>
      exact .numeral left _ right text hleft hright (Text.isInteger_signed short)

theorem SameInteger.read {v w : Value} (h : SameInteger v w) (name : String) :
    readInteger name v = readInteger name w := by
  rcases h with rfl | ⟨n, short, hv, hw⟩
  · rfl
  · rw [(hv.gives short).read, (hw.gives short).read]

theorem readContainer_octets (name s : String) :
    readContainer name (.bytes s.toUTF8) = readContainer name (.text s) := by
  have hdecode : String.fromUTF8? s.toUTF8 = some s := by
    simp only [String.fromUTF8?, String.toUTF8_eq_toByteArray, dif_pos s.isValidUTF8]
    rfl
  simp only [readContainer, hdecode]

theorem readContainer_container {v : Value} (container : v.IsContainer) (name : String) :
    readContainer name v = .ok (some v) := by
  cases container <;> rfl

theorem Carries.read {s : String} {v : Value} (h : Carries s v) (name : String) :
    readContainer name v = readContainer name (.text s) := by
  cases h with
  | text => rfl
  | octets => exact readContainer_octets name s
  | @decoded _ room read container nested =>
      have hblank := Json.isAllBlank_of_read read container
      have hread : Json.read Json.maxNesting s = .ok v := by
        have hroom : Json.IsNestedAtMost room s := by simp [Json.IsNestedAtMost, read]
        rcases Nat.le_total room Json.maxNesting with hle | hle
        · rw [hroom.read_eq hle, read]
        · rw [← nested.read_eq hle, read]
      rw [readContainer_container container, readContainer, decodeText, hblank, hread]
      cases container <;> rfl

theorem SameContainer.read {v w : Value} (h : SameContainer v w) (name : String) :
    readContainer name v = readContainer name w := by
  rcases h with rfl | ⟨s, hv, hw⟩
  · rfl
  · rw [hv.read, hw.read]

theorem CarriedAlike.ofRaw_eq {raw raw' : RawRequest} (h : CarriedAlike raw raw')
    (settings : Settings) : ofRaw settings raw = ofRaw settings raw' := by
  unfold ofRaw readLimit readOffset
  rw [h.limit.read, h.offset.read, h.filter.read, h.order.read, h.text]

/-- How a text is refused that is neither blank nor an object or a list, and as octets too: as not
decoded or as another value, or by a fault if it is nested too deep. -/
inductive Declines (name s : String) : Failure → Prop
  | refused (problem : ParameterProblem) (nested : Json.IsNestedAtMost Json.maxNesting s) :
      Declines name s (.parameter name problem)
  | givenUp (deep : ¬Json.IsNestedAtMost Json.maxNesting s) : Declines name s (.fault .tooDeep)

theorem readContainer_declines {s : String} (hblank : Text.isAllBlank s = false)
    (hread : ∀ room v, Json.read room s = .ok v → ¬v.IsContainer) (name : String) :
    ∃ e, readContainer name (.text s) = .error e ∧ Declines name s e := by
  rw [readContainer, decodeText, hblank]
  cases h : Json.read Json.maxNesting s with
  | error e =>
      cases e with
      | malformed => exact ⟨_, rfl, .refused _ (by simp [Json.IsNestedAtMost, h])⟩
      | tooDeep => exact ⟨_, rfl, .givenUp fun nested => nested h⟩
  | ok v =>
      have hother := hread _ v h
      have nested : Json.IsNestedAtMost Json.maxNesting s := by simp [Json.IsNestedAtMost, h]
      cases v with
      | object es => exact absurd (.object es) hother
      | list items => exact absurd (.list items) hother
      | _ => exact ⟨_, rfl, .refused _ nested⟩

end Request

/-- A request is the same, or fails in the same way, however its parameters are carried, unless a
text is nested too deep to be read. -/
theorem requests_read_alike_however_carried (settings : Settings) :
    (∀ raw raw', Request.CarriedAlike raw raw' →
      Request.ofRaw settings raw = Request.ofRaw settings raw') ∧
    (∀ params params' names, Request.CarriedAlike (Request.rawOf settings params names)
        (Request.rawOf settings params' names) →
      Request.ofParameters settings params names = Request.ofParameters settings params' names) ∧
    (∀ name s, Text.isAllBlank s = false →
      (∀ room v, Json.read room s = .ok v → ¬v.IsContainer) →
      ∃ e, Request.readContainer name (.text s) = .error e ∧
        Request.readContainer name (.bytes s.toUTF8) = .error e ∧ Request.Declines name s e) ∧
    ∀ name name' v w, Request.readContainer name v = .ok (some w) →
      Request.readContainer name' w = .ok (some w) := by
  refine ⟨fun _ _ h => h.ofRaw_eq settings, fun _ _ _ h => h.ofRaw_eq settings, ?_, ?_⟩
  · intro name s hblank hread
    obtain ⟨e, herror, declines⟩ := Request.readContainer_declines hblank hread name
    exact ⟨e, herror, (Request.readContainer_octets name s).trans herror, declines⟩
  · intro name name' v w h
    exact Request.readContainer_container (Request.isContainer_of_readContainer h) name'

section Carried

def writtenParameters : RawRequest where
  limit := .text " 7 "
  offset := .text "-1"
  filter := .text "\x7b\"title\": \"a%\"\x7d"
  order := .bytes "[]".toUTF8

def decodedParameters : RawRequest where
  limit := .int 7
  offset := .int (-1)
  filter := .object [(.text "title", .text "a%")]
  order := .text "[]"

theorem decoded_parameters_are_refused_alike :
    Request.CarriedAlike writtenParameters decodedParameters ∧
      Request.ofRaw default writtenParameters = Request.ofRaw default decodedParameters ∧
      Request.ofRaw default decodedParameters = .error (.parameter "offset" .negative) := by
  have hread : Json.read Json.maxNesting "\x7b\"title\": \"a%\"\x7d" =
      .ok (.object [(.text "title", .text "a%")]) := by
    cbv
  have short : 10 ^ 1 ≤ 10 ^ Text.maxDigits := Nat.pow_le_pow_right (by decide) (by decide)
  have alike : Request.CarriedAlike writtenParameters decodedParameters := by
    refine ⟨.inr ⟨7, Nat.lt_of_lt_of_le (by decide) short, ?_, .integer⟩,
      .inr ⟨-1, Nat.lt_of_lt_of_le (by decide) short, ?_, .integer⟩,
      .inr ⟨_, .text, .decoded hread (.object _) (by simp [Json.IsNestedAtMost, hread])⟩,
      .inr ⟨_, .octets, .text⟩, rfl⟩
    · have hblank : ∀ c ∈ [' '], Text.isBlank c = true := forall_mem_of_all (by decide)
      exact .numeral [' '] [' '] (by decide +kernel) hblank hblank
    · have hnone : ∀ c ∈ [], Text.isBlank c = true := List.forall_mem_nil _
      exact .numeral [] [] (by decide +kernel) hnone hnone
  exact ⟨alike, (requests_read_alike_however_carried default).1 _ _ alike, rfl⟩

/-- Opening brackets alone are no JSON, but so many of them are not refused as such. -/
theorem many_brackets_are_not_refused :
    let s := String.ofList (List.replicate 2000 '[')
    Text.isAllBlank s = false ∧ (∀ room v, Json.read room s ≠ .ok v) ∧
      Request.readContainer "filter" (.text s) = .error (.fault .tooDeep) ∧
      (Failure.fault .tooDeep).kind? = none := by
  intro s
  have hblank : Text.isAllBlank s = false := by
    rw [Text.isAllBlank, String.toList_ofList, List.all_replicate]
    rfl
  have hdeep : Json.read Json.maxNesting s = .error .tooDeep := Json.read_replicate _ _ (by decide)
  refine ⟨hblank, fun room => Json.read_replicate_ne_ok room 2000, ?_, rfl⟩
  rw [Request.readContainer, Request.decodeText, hblank, hdeep]
  rfl

end Carried

end Catalogue
