import Mathlib.Data.List.Nodup
import NominalTypes.Proofs.Sequencing
import NominalTypes.TypeToken.History

/-!
# One token for each type

Both kinds of requests to a cache are one and the same: the token is looked up, and what is not found
is issued if the type is concrete. So no type gets a second token while the first one is kept, and
since entries are only added, it is kept for ever. The mint numbers its tokens, so that different
types have different tokens. What a cache holds is invariant under requests (`TokenCache.IsCanonical`),
and the invariant holds along every run.
-/

namespace NominalTypes

/-- A type is concrete when it is no variable and no wildcard, and has an erasure. -/
theorem Ty.concreteClass_eq_ok_iff {ty : Ty} {raw : ClassName} :
    ty.concreteClass = .ok raw ↔
      ty.isVariable = false ∧ ty.isWildcard = false ∧ ty.erase = .ok raw := by
  cases ty with
  | var | wildcard => simp [concreteClass, isVariable, isWildcard]
  | nominal | array | parameterized => simp [concreteClass, isVariable, isWildcard]

namespace TokenCache

variable {cache : TokenCache} {supply : Mint} {ty : Ty} {token : TypeToken}

/-- Each type has one entry, which holds a token of the type with a serial number of its own. -/
structure IsCanonical (cache : TokenCache) (supply : Mint) : Prop where
  wraps : ∀ entry ∈ cache.entries,
    entry.2.ty = entry.1 ∧ entry.1.concreteClass = .ok entry.2.raw
  keysOnce : (cache.entries.map Prod.fst).Nodup
  serialsOnce : (cache.entries.map fun entry => entry.2.serial).Nodup
  issued : ∀ entry ∈ cache.entries, entry.2.serial < supply.issued

theorem find?_eq_none_iff : cache.find? ty = none ↔ ty ∉ cache.entries.map Prod.fst := by
  simp only [find?, Option.map_eq_none_iff, List.find?_eq_none, decide_eq_true_eq, List.mem_map,
    not_exists, not_and]

theorem mem_entries_of_find? (found : cache.find? ty = some token) :
    (ty, token) ∈ cache.entries := by
  rcases Option.map_eq_some_iff.1 found with ⟨⟨key, stored⟩, isFound, rfl⟩
  have isKey : key = ty := by simpa using List.find?_some isFound
  subst isKey
  exact List.mem_of_find?_eq_some isFound

/-- Stored tokens are one and the same just if their types are equal. -/
theorem IsCanonical.isSame_iff (canonical : cache.IsCanonical supply) {first second : Ty × TypeToken}
    (isFirst : first ∈ cache.entries) (isSecond : second ∈ cache.entries) :
    first.2.isSame second.2 = true ↔ first.1 = second.1 := by
  simp only [TypeToken.isSame, decide_eq_true_eq]
  constructor
  · intro sameSerial
    exact congrArg Prod.fst
      (List.inj_on_of_nodup_map canonical.serialsOnce isFirst isSecond sameSerial)
  · intro sameType
    rw [List.inj_on_of_nodup_map canonical.keysOnce isFirst isSecond sameType]

/-- A request is answered from the cache, else with a new token if the type is concrete. -/
theorem answer_eq (cache : TokenCache) (supply : Mint) (request : TokenRequest) :
    cache.answer supply request =
      match cache.find? request.ty, request.ty.concreteClass with
      | some token, _ => (.ok token, cache, supply)
      | none, .error cause => (.error cause, cache, supply)
      | none, .ok raw =>
          (.ok (supply.issue request.ty raw).1, cache.add (supply.issue request.ty raw).1,
            (supply.issue request.ty raw).2) := by
  cases request with
  | type ty =>
      simp only [answer, get, TokenRequest.ty]
      cases cache.find? ty with
      | some token => rfl
      | none =>
          simp only [Mint.token]
          cases ty.concreteClass <;> rfl
  | ofClass named =>
      simp only [answer, getClass, TokenRequest.ty]
      cases cache.find? (.nominal named) <;> rfl

/-- What a request can do: find its token, fail and change nothing, or have a token issued. -/
theorem answer_cases (cache : TokenCache) (supply : Mint) (request : TokenRequest) :
    (∃ token, cache.find? request.ty = some token ∧
        cache.answer supply request = (.ok token, cache, supply)) ∨
      (∃ cause, cache.find? request.ty = none ∧ request.ty.concreteClass = .error cause ∧
        cache.answer supply request = (.error cause, cache, supply)) ∨
      ∃ raw, cache.find? request.ty = none ∧ request.ty.concreteClass = .ok raw ∧
        cache.answer supply request =
          (.ok (supply.issue request.ty raw).1, cache.add (supply.issue request.ty raw).1,
            (supply.issue request.ty raw).2) := by
  rw [answer_eq]
  cases found : cache.find? request.ty with
  | some token => exact Or.inl ⟨token, rfl, rfl⟩
  | none =>
      cases concrete : request.ty.concreteClass with
      | error cause => exact Or.inr (Or.inl ⟨cause, rfl, rfl, rfl⟩)
      | ok raw => exact Or.inr (Or.inr ⟨raw, rfl, rfl, rfl⟩)

/-- A new token for a type without one keeps the cache canonical. -/
theorem IsCanonical.add_issued (canonical : cache.IsCanonical supply) {raw : ClassName}
    (missing : cache.find? ty = none) (concrete : ty.concreteClass = .ok raw) :
    (cache.add (supply.issue ty raw).1).IsCanonical (supply.issue ty raw).2 := by
  refine ⟨?_, ?_, ?_, ?_⟩
  · exact List.forall_mem_append.2
      ⟨canonical.wraps, List.forall_mem_singleton.2 ⟨rfl, concrete⟩⟩
  · rw [add, List.map_append, List.map_singleton, ← List.concat_eq_append]
    exact canonical.keysOnce.concat (find?_eq_none_iff.1 missing)
  · rw [add, List.map_append, List.map_singleton, ← List.concat_eq_append]
    apply canonical.serialsOnce.concat
    intro isIssued
    rcases List.mem_map.1 isIssued with ⟨entry, member, sameSerial⟩
    exact Nat.ne_of_lt (canonical.issued entry member) sameSerial
  · exact List.forall_mem_append.2 ⟨fun entry member => Nat.lt_succ_of_lt
      (canonical.issued entry member), List.forall_mem_singleton.2 (Nat.lt_succ_self _)⟩

/-- A request keeps the invariant. -/
theorem IsCanonical.answer (canonical : cache.IsCanonical supply) (request : TokenRequest) :
    (cache.answer supply request).2.1.IsCanonical (cache.answer supply request).2.2 := by
  rcases cache.answer_cases supply request with
    ⟨token, -, answered⟩ | ⟨cause, -, -, answered⟩ | ⟨raw, missing, concrete, answered⟩
  · rw [answered]
    exact canonical
  · rw [answered]
    exact canonical
  · rw [answered]
    exact canonical.add_issued missing concrete

/-- A request adds at most an entry at the end. -/
theorem entries_isPrefix_answer (cache : TokenCache) (supply : Mint) (request : TokenRequest) :
    cache.entries <+: (cache.answer supply request).2.1.entries := by
  rcases cache.answer_cases supply request with
    ⟨token, -, answered⟩ | ⟨cause, -, -, answered⟩ | ⟨raw, -, -, answered⟩
  · simp only [answered, List.prefix_rfl]
  · simp only [answered, List.prefix_rfl]
  · simp only [answered, add, List.prefix_append]

/-- A request that succeeds is answered with the token that is stored for its type afterwards. -/
theorem mem_entries_of_answer {request : TokenRequest}
    (succeeded : (cache.answer supply request).1 = .ok token) :
    (request.ty, token) ∈ (cache.answer supply request).2.1.entries := by
  rcases cache.answer_cases supply request with
    ⟨stored, found, answered⟩ | ⟨cause, -, -, answered⟩ | ⟨raw, -, -, answered⟩
  · rw [answered] at succeeded ⊢
    cases succeeded
    exact mem_entries_of_find? found
  · rw [answered] at succeeded
    cases succeeded
  · rw [answered] at succeeded ⊢
    cases succeeded
    exact List.mem_append_right _ (List.mem_singleton.2 rfl)

/-- Whether a request fails, and with which cause, depends on its type alone. -/
theorem IsCanonical.answer_eq_error_iff (canonical : cache.IsCanonical supply)
    {request : TokenRequest} {cause : TypeError} :
    (cache.answer supply request).1 = .error cause ↔
      request.ty.concreteClass = .error cause := by
  rcases cache.answer_cases supply request with
    ⟨token, found, answered⟩ | ⟨other, -, concrete, answered⟩ | ⟨raw, -, concrete, answered⟩
  · rw [answered, (canonical.wraps _ (mem_entries_of_find? found)).2]
    simp
  · rw [answered, concrete]
    simp
  · rw [answered, concrete]
    simp

theorem answer_of_error {request : TokenRequest} {cause : TypeError}
    (failed : (cache.answer supply request).1 = .error cause) :
    (cache.answer supply request).2 = (cache, supply) := by
  rcases cache.answer_cases supply request with
    ⟨token, -, answered⟩ | ⟨other, -, -, answered⟩ | ⟨raw, -, -, answered⟩ <;>
    rw [answered] at failed ⊢
  cases failed

theorem answers_cons (cache : TokenCache) (supply : Mint) (request : TokenRequest)
    (requests : List TokenRequest) :
    cache.answers supply (request :: requests) =
      let next := cache.answer supply request
      let others := next.2.1.answers next.2.2 requests
      (next.1 :: others.1, others.2) := rfl

theorem answers_append (cache : TokenCache) (supply : Mint) (earlier later : List TokenRequest) :
    cache.answers supply (earlier ++ later) =
      let first := cache.answers supply earlier
      let second := first.2.1.answers first.2.2 later
      (first.1 ++ second.1, second.2) := by
  induction earlier generalizing cache supply with
  | nil => rfl
  | cons request rest ih => simp only [List.cons_append, answers_cons, ih]

theorem IsCanonical.answers (canonical : cache.IsCanonical supply)
    (requests : List TokenRequest) :
    (cache.answers supply requests).2.1.IsCanonical (cache.answers supply requests).2.2 := by
  induction requests generalizing cache supply with
  | nil => exact canonical
  | cons request rest ih => exact ih (canonical.answer request)

/-- A run only adds entries behind those that were there. -/
theorem entries_isPrefix_answers (cache : TokenCache) (supply : Mint)
    (requests : List TokenRequest) :
    cache.entries <+: (cache.answers supply requests).2.1.entries := by
  induction requests generalizing cache supply with
  | nil => exact List.prefix_rfl
  | cons request rest ih => exact (cache.entries_isPrefix_answer supply request).trans (ih _ _)

/-- What a run answers a request with is stored for the type of the request at its end. -/
theorem mem_entries_of_answers {requests : List TokenRequest} {request : TokenRequest}
    (answered : (request, .ok token) ∈ requests.zip (cache.answers supply requests).1) :
    (request.ty, token) ∈ (cache.answers supply requests).2.1.entries := by
  induction requests generalizing cache supply with
  | nil => cases answered
  | cons first rest ih =>
      rw [answers_cons, List.zip_cons_cons] at answered
      rcases List.mem_cons.1 answered with isFirst | later
      · rcases Prod.mk.inj isFirst with ⟨rfl, succeeded⟩
        have isStored := mem_entries_of_answer succeeded.symm
        exact (entries_isPrefix_answers _ _ rest).subset isStored
      · exact ih later

theorem isCanonical_nil (mint : Mint) : (TokenCache.mk []).IsCanonical mint := by
  refine ⟨?_, List.nodup_nil, List.nodup_nil, ?_⟩
  · exact fun entry member => absurd member List.not_mem_nil
  · exact fun entry member => absurd member List.not_mem_nil

theorem foldl_getClass_eq (cache : TokenCache) (supply : Mint) (names : List String) :
    names.foldl (fun (cache, supply) name => (cache.getClass supply (.plain name)).2)
        (cache, supply) =
      (cache.answers supply (names.map fun name => .ofClass (.plain name))).2 := by
  induction names generalizing cache supply with
  | nil => rfl
  | cons name rest ih => exact ih _ _

theorem isCanonical_seeded (mint : Mint) : (seeded mint).1.IsCanonical (seeded mint).2 := by
  rw [seeded, foldl_getClass_eq]
  exact (isCanonical_nil mint).answers _

theorem isCanonical_reached (mint : Mint) (requests : List TokenRequest) :
    (reached mint requests).1.IsCanonical (reached mint requests).2 :=
  (isCanonical_seeded mint).answers requests

theorem reached_append (mint : Mint) (earlier later : List TokenRequest) :
    reached mint (earlier ++ later) =
      ((reached mint earlier).1.answers (reached mint earlier).2 later).2 := by
  simp only [reached, answers_append]

theorem reached_concat (mint : Mint) (earlier : List TokenRequest) (request : TokenRequest) :
    reached mint (earlier ++ [request]) =
      ((reached mint earlier).1.answer (reached mint earlier).2 request).2 := by
  rw [reached_append]
  rfl

/-- Each token that was given out is stored. -/
theorem mem_entries_of_granted {mint : Mint} {requests : List TokenRequest}
    {entry : Ty × TypeToken} (given : entry ∈ granted mint requests) :
    entry ∈ (reached mint requests).1.entries := by
  rcases List.mem_append.1 given with isSeed | isReply
  · exact (entries_isPrefix_answers _ _ requests).subset isSeed
  · rcases List.mem_filterMap.1 isReply with ⟨⟨request, reply⟩, answered, succeeded⟩
    cases reply with
    | error cause => cases succeeded
    | ok token =>
        cases succeeded
        exact mem_entries_of_answers answered

/-- What holds of every run of a new cache. A stored token is for the type that it is stored
under, which is no variable and no wildcard and erases to the token's class. Entries stay. What
fails once changes nothing and always fails, with the same cause. Tokens given out are one and the
same just if they are for equal types. -/
theorem run_isCanonical (mint : Mint) :
    (∀ requests, ∀ entry ∈ (reached mint requests).1.entries,
      entry.2.ty = entry.1 ∧ entry.1.erase = .ok entry.2.raw ∧
        entry.1.isVariable = false ∧ entry.1.isWildcard = false) ∧
    (∀ earlier later,
      (reached mint earlier).1.entries <+: (reached mint (earlier ++ later)).1.entries) ∧
    (∀ earlier request cause, replyAfter mint earlier request = .error cause →
      reached mint (earlier ++ [request]) = reached mint earlier ∧
        ∀ later, replyAfter mint (earlier ++ later) request = .error cause) ∧
    ∀ requests, ∀ first ∈ granted mint requests, ∀ second ∈ granted mint requests,
      first.2.isSame second.2 = true ↔ first.1 = second.1 := by
  refine ⟨?_, ?_, ?_, ?_⟩
  · intro requests entry member
    have ⟨wraps, concrete⟩ := (isCanonical_reached mint requests).wraps entry member
    have ⟨isNoVariable, isNoWildcard, erased⟩ := Ty.concreteClass_eq_ok_iff.1 concrete
    exact ⟨wraps, erased, isNoVariable, isNoWildcard⟩
  · intro earlier later
    rw [reached_append]
    exact entries_isPrefix_answers _ _ later
  · intro earlier request cause failed
    have isAbstract := (isCanonical_reached mint earlier).answer_eq_error_iff.1 failed
    constructor
    · rw [reached_concat]
      exact answer_of_error failed
    · intro later
      exact (isCanonical_reached mint (earlier ++ later)).answer_eq_error_iff.2 isAbstract
  · intro requests first isFirst second isSecond
    exact (isCanonical_reached mint requests).isSame_iff (mem_entries_of_granted isFirst)
      (mem_entries_of_granted isSecond)

/-- A run that asks twice for the token of a type, and in between for one that fails. -/
theorem run_isCanonical_boxes :
    let boxes : Ty := .parameterized none (.plain "a.Box") [.wildcard [] []]
    let requests : List TokenRequest :=
      [.type boxes, .type (.wildcard [] []), .ofClass .object, .type boxes]
    ∃ seed token,
      replies {} requests =
        [.ok token, .error (.wildcardToken (.wildcard [] [])), .ok seed, .ok token] ∧
      (.nominal .object, seed) ∈ (seeded {}).1.entries ∧
      reached {} (requests ++ [.type (.wildcard [] [])]) = reached {} requests ∧
      token.isSame token = true ∧ seed.isSame token = false := by
  intro boxes requests
  let seed : TypeToken := ⟨.nominal .object, .object, 0⟩
  let token : TypeToken := ⟨boxes, .plain "a.Box", 10⟩
  have ⟨_, _, failsForEver, sameJustIf⟩ := run_isCanonical {}
  have isSeed : (.nominal .object, seed) ∈ granted {} requests := List.mem_cons_self
  have isToken : (boxes, token) ∈ granted {} requests :=
    List.mem_append_right _ List.mem_cons_self
  refine ⟨seed, token, rfl, List.mem_cons_self, ?_, ?_, ?_⟩
  · exact (failsForEver requests (.type (.wildcard [] [])) _ rfl).1
  · exact (sameJustIf requests _ isToken _ isToken).2 rfl
  · have different : ¬ seed.isSame token = true :=
      (sameJustIf requests _ isSeed _ isToken).not.2 (by simp [boxes])
    exact Bool.eq_false_iff.2 different

end TokenCache

end NominalTypes
