import Dagmar.RateLimits
import Mathlib.Data.List.Induction
import Mathlib.Tactic.Linarith

/-! A bucket keeps exactly the calls of the last minute that it has let through: calls
come in the order of the clock, so what the front of the bucket has lost no later call
asks for. -/

namespace Dagmar.RateLimits.Proofs

section Statements
variable (limits : String → Int)

/-- Two calls that are counted together. -/
def Call.Together (first second : Call) : Prop :=
  first.bucketNamespace = second.bucketNamespace ∧ first.request.clientKey = second.request.clientKey

instance (first second : Call) : Decidable (Call.Together first second) := inferInstanceAs (Decidable (_ ∧ _))

/-- The call is turned away after the earlier ones. -/
def Rejected (earlier : List Call) (call : Call) : Prop :=
  (call.enforce limits (served limits earlier).buckets).2 = .error rateLimited

/-- The calls of one bucket that were let through at times with a property. -/
def letThrough (calls : List Call) (call : Call) (p : Rat → Prop) [DecidablePred p] : List Call :=
  (served limits calls).accepted.filter fun other => Call.Together other call ∧ p other.now

/-- What a limit on each minute means for a run of calls at a call of it. -/
structure Limited (before : List Call) (call : Call) (after : List Call) : Prop where
  exact' : Rejected limits before call ↔
    limits call.bucketNamespace ≤ (letThrough limits before call fun time => call.now - 60 < time ∧ time ≤ call.now).length
  closed : ∀ start : Rat, ((letThrough limits (before ++ call :: after) call fun time =>
    start < time ∧ time ≤ start + 60).length : Int) ≤ limits call.bucketNamespace
  opened : ∀ start : Rat, ((letThrough limits (before ++ call :: after) call fun time =>
    start ≤ time ∧ time < start + 60).length : Int) ≤ limits call.bucketNamespace
  separate : (served limits ((before ++ call :: after).filter (Call.Together · call))).accepted =
    (served limits (before ++ call :: after)).accepted.filter (Call.Together · call)

end Statements

section Buckets
variable {limits : String → Int} {calls : List Call} {call : Call} {now : Rat} {key : String} {bucket : List Rat}

theorem cleanup_eq_filter (sorted : bucket.Pairwise (· ≤ ·)) : cleanup now bucket = bucket.filter (now - · < windowSeconds) := by
  induction bucket with
  | nil => rfl
  | cons first bucket ih =>
    obtain ⟨below, sorted⟩ := List.pairwise_cons.mp sorted
    rw [cleanup]
    by_cases old : windowSeconds ≤ now - first
    · rw [if_pos old, ih sorted, List.filter_cons_of_neg (by simpa using old)]
    · rw [if_neg old, eq_comm, List.filter_eq_self]
      intro time member
      rw [decide_eq_true_eq]
      rcases List.mem_cons.mp member with rfl | later
      · exact not_le.mp old
      · have := below time later
        linarith [not_le.mp old]

/-- The times at which calls of a bucket were let through. -/
def times (served : Served) (key : String) : List Rat :=
  (served.accepted.filter (·.bucketKey = key)).map Call.now

theorem served_append (limits : String → Int) (calls : List Call) (call : Call) :
    served limits (calls ++ [call]) = serve limits (served limits calls) call := by
  rw [served, List.foldl_append]
  rfl

/-- A call with a limit looks at its bucket, and leaves what is left of it with its own time or without. -/
theorem enforce_cases (positive : 1 ≤ limits call.bucketNamespace) (buckets : Buckets) :
    limits call.bucketNamespace ≤ (cleanup call.now (buckets call.bucketKey)).length ∧
      call.enforce limits buckets =
        (Function.update buckets call.bucketKey (cleanup call.now (buckets call.bucketKey)), .error rateLimited) ∨
    (cleanup call.now (buckets call.bucketKey)).length < limits call.bucketNamespace ∧
      call.enforce limits buckets =
        (Function.update buckets call.bucketKey (cleanup call.now (buckets call.bucketKey) ++ [call.now]), .ok ()) := by
  have limited : ¬ limits call.bucketNamespace ≤ 0 := by omega
  rw [Call.enforce, enforceRateLimit, if_neg limited, ← Call.bucketKey]
  by_cases full : limits call.bucketNamespace ≤ (cleanup call.now (buckets call.bucketKey)).length
  · exact .inl ⟨full, if_pos full⟩
  · exact .inr ⟨not_le.mp full, if_neg full⟩

theorem serve_cases (positive : 1 ≤ limits call.bucketNamespace) (served : Served) :
    limits call.bucketNamespace ≤ (cleanup call.now (served.buckets call.bucketKey)).length ∧ serve limits served call =
        ⟨Function.update served.buckets call.bucketKey (cleanup call.now (served.buckets call.bucketKey)), served.accepted⟩ ∨
    (cleanup call.now (served.buckets call.bucketKey)).length < limits call.bucketNamespace ∧ serve limits served call =
        ⟨Function.update served.buckets call.bucketKey (cleanup call.now (served.buckets call.bucketKey) ++ [call.now]),
          served.accepted ++ [call]⟩ := by
  rcases enforce_cases positive served.buckets with ⟨full, same⟩ | ⟨room, same⟩
  · refine .inl ⟨full, ?_⟩
    rw [serve, same]
    rfl
  · refine .inr ⟨room, ?_⟩
    rw [serve, same]
    rfl

theorem accepted_sublist (limits : String → Int) (calls : List Call) : (served limits calls).accepted.Sublist calls := by
  induction calls using List.reverseRecOn with
  | nil => exact List.Sublist.refl _
  | append_singleton calls call ih =>
    rw [served_append, serve]
    dsimp only
    split
    · exact ih.append_right [call]
    · exact ih.trans (List.sublist_append_left calls [call])

theorem times_append (served : Served) (key : String) (call : Call) (buckets : Buckets) :
    times ⟨buckets, served.accepted ++ [call]⟩ key = times served key ++ if call.bucketKey = key then [call.now] else [] := by
  rw [times, List.filter_append, List.map_append, ← times]
  by_cases same : call.bucketKey = key <;> simp [same]

/-- A call leaves of its bucket what is within the minute, with its own time if it is let through. -/
theorem serve_bucket (positive : 1 ≤ limits call.bucketNamespace) (served : Served) :
    ∃ added, (added = [] ∨ added = [call.now]) ∧
      (serve limits served call).buckets call.bucketKey = cleanup call.now (served.buckets call.bucketKey) ++ added ∧
      times (serve limits served call) call.bucketKey = times served call.bucketKey ++ added := by
  rcases serve_cases positive served with ⟨-, same⟩ | ⟨-, same⟩
  · refine ⟨[], .inl rfl, ?_⟩
    rw [same, List.append_nil, List.append_nil]
    exact ⟨Function.update_self .., rfl⟩
  · refine ⟨[call.now], .inr rfl, ?_⟩
    rw [same, times_append, if_pos rfl]
    exact ⟨Function.update_self .., rfl⟩

/-- Other buckets stay as they are. -/
theorem serve_other (positive : 1 ≤ limits call.bucketNamespace) (served : Served) (other : call.bucketKey ≠ key) :
    (serve limits served call).buckets key = served.buckets key ∧ times (serve limits served call) key = times served key := by
  rcases serve_cases positive served with ⟨-, same⟩ | ⟨-, same⟩
  · rw [same]
    exact ⟨Function.update_of_ne other.symm _ _, rfl⟩
  · rw [same, times_append, if_neg other, List.append_nil]
    exact ⟨Function.update_of_ne other.symm _ _, rfl⟩

/-- Every bucket is in order, and cleaned up at any later time it holds what was let through in the last minute. -/
theorem bucket_kept (positive : ∀ name, 1 ≤ limits name) (inOrder : calls.Pairwise fun first second => first.now ≤ second.now)
    (upTo : ∀ call ∈ calls, call.now ≤ now) (key : String) :
    (((served limits calls).buckets key).Pairwise (· ≤ ·) ∧ ∀ time ∈ (served limits calls).buckets key, time ≤ now) ∧
      cleanup now ((served limits calls).buckets key) = (times (served limits calls) key).filter (now - · < windowSeconds) := by
  induction calls using List.reverseRecOn generalizing now with
  | nil => exact ⟨⟨List.Pairwise.nil, fun _ member => by cases member⟩, rfl⟩
  | append_singleton calls call ih =>
    obtain ⟨earlier, -, before⟩ := List.pairwise_append.mp inOrder
    have upToCall : ∀ other ∈ calls, other.now ≤ call.now := fun other member => before other member call List.mem_cons_self
    have current : call.now ≤ now := upTo call (by simp)
    rw [served_append]
    by_cases same : call.bucketKey = key
    · subst same
      obtain ⟨⟨sorted, old⟩, kept⟩ := ih earlier upToCall
      obtain ⟨added, either, bucket, counted⟩ := serve_bucket (positive call.bucketNamespace) (served limits calls)
      have own : ∀ time ∈ added, time = call.now := by
        rcases either with rfl | rfl <;> simp
      have left : ∀ time ∈ cleanup call.now ((served limits calls).buckets call.bucketKey), time ≤ call.now := by
        intro time member
        rw [cleanup_eq_filter sorted] at member
        exact old time (List.mem_of_mem_filter member)
      have ordered : (cleanup call.now ((served limits calls).buckets call.bucketKey) ++ added).Pairwise (· ≤ ·) := by
        refine List.pairwise_append.mpr ⟨?_, ?_, ?_⟩
        · rw [cleanup_eq_filter sorted]
          exact sorted.filter _
        · rcases either with rfl | rfl <;> simp
        · intro time member other member'
          rw [own other member']
          exact left time member
      have bounded : ∀ time ∈ cleanup call.now ((served limits calls).buckets call.bucketKey) ++ added, time ≤ now := by
        intro time member
        rcases List.mem_append.mp member with first | second
        · exact (left time first).trans current
        · exact (own time second).le.trans current
      rw [bucket, counted]
      refine ⟨⟨ordered, bounded⟩, ?_⟩
      rw [cleanup_eq_filter ordered, List.filter_append, List.filter_append, kept, List.filter_filter]
      congr 1
      -- What the last minute still has now it had at the call.
      apply List.filter_congr
      intro time _
      rw [Bool.and_eq_left_iff_imp]
      intro recent
      exact decide_eq_true (by linarith [of_decide_eq_true recent])
    · obtain ⟨bucket, counted⟩ := serve_other (positive call.bucketNamespace) (served limits calls) same
      rw [bucket, counted]
      exact ih earlier fun other member => (upToCall other member).trans current

/-- A call is turned away exactly when the last minute has had its fill. -/
theorem rejected_iff (positive : ∀ name, 1 ≤ limits name) (inOrder : calls.Pairwise fun first second => first.now ≤ second.now)
    (upTo : ∀ other ∈ calls, other.now ≤ call.now) :
    Rejected limits calls call ↔ limits call.bucketNamespace ≤
      ((times (served limits calls) call.bucketKey).filter (call.now - · < windowSeconds)).length := by
  rw [← (bucket_kept positive inOrder upTo call.bucketKey).2, Rejected]
  rcases enforce_cases (positive call.bucketNamespace) (served limits calls).buckets with ⟨full, same⟩ | ⟨room, same⟩
  · rw [same]
    exact iff_of_true rfl full
  · rw [same]
    exact iff_of_false nofun (not_le.mpr room)

/-- Of times less than a minute apart no more are let through than the limit. -/
theorem counted_le (positive : ∀ name, 1 ≤ limits name) (inOrder : calls.Pairwise fun first second => first.now ≤ second.now)
    (p : Rat → Prop) [DecidablePred p] (narrow : ∀ first second, p first → p second → second - first < windowSeconds)
    {limit : Int} (sameLimit : ∀ call ∈ calls, call.bucketKey = key → limits call.bucketNamespace = limit) (allowed : 0 ≤ limit) :
    (((times (served limits calls) key).filter (p ·)).length : Int) ≤ limit := by
  induction calls using List.reverseRecOn with
  | nil => exact allowed
  | append_singleton calls call ih =>
    obtain ⟨earlier, -, before⟩ := List.pairwise_append.mp inOrder
    have upToCall : ∀ other ∈ calls, other.now ≤ call.now := fun other member => before other member call List.mem_cons_self
    have rest := ih earlier fun other member => sameLimit other (List.mem_append_left _ member)
    rw [served_append]
    by_cases same : call.bucketKey = key
    · subst same
      have own := sameLimit call (by simp) rfl
      rcases serve_cases (positive call.bucketNamespace) (served limits calls) with ⟨-, turned⟩ | ⟨room, passed⟩
      · rw [turned]
        exact rest
      · rw [passed, times_append, if_pos rfl, List.filter_append, List.length_append]
        by_cases inside : p call.now
        · -- All of them are within the minute that the call looks at.
          rw [(bucket_kept positive earlier upToCall call.bucketKey).2, own] at room
          have fewer : ((times (served limits calls) call.bucketKey).filter (p ·)).length ≤
              ((times (served limits calls) call.bucketKey).filter (call.now - · < windowSeconds)).length := by
            refine (List.monotone_filter_right _ fun time holds => ?_).length_le
            exact decide_eq_true (narrow time call.now (of_decide_eq_true holds) inside)
          rw [List.filter_cons_of_pos (by simpa using inside), List.filter_nil, List.length_singleton]
          omega
        · rw [List.filter_cons_of_neg (by simpa using inside), List.filter_nil, List.length_nil]
          omega
    · rw [(serve_other (positive call.bucketNamespace) (served limits calls) same).2]
      exact rest

/-- A bucket's calls by themselves fare as they do among the others. -/
theorem served_filter (positive : ∀ name, 1 ≤ limits name) (calls : List Call) (key : String) :
    (served limits (calls.filter (·.bucketKey = key))).buckets key = (served limits calls).buckets key ∧
      (served limits (calls.filter (·.bucketKey = key))).accepted = (served limits calls).accepted.filter (·.bucketKey = key) := by
  induction calls using List.reverseRecOn with
  | nil => exact ⟨rfl, rfl⟩
  | append_singleton calls call ih =>
    obtain ⟨buckets, accepted⟩ := ih
    rw [List.filter_append, served_append]
    by_cases same : call.bucketKey = key
    · subst same
      rw [List.filter_cons_of_pos (by simp), List.filter_nil, served_append]
      rcases serve_cases (positive call.bucketNamespace) (served limits calls) with ⟨full, turned⟩ | ⟨room, passed⟩
      · rcases serve_cases (positive call.bucketNamespace) (served limits (calls.filter (·.bucketKey = call.bucketKey))) with
          ⟨-, turned'⟩ | ⟨room', -⟩
        · rw [turned, turned', buckets]
          refine ⟨?_, accepted⟩
          dsimp only
          rw [Function.update_self, Function.update_self]
        · rw [buckets] at room'
          exact absurd full (not_le.mpr room')
      · rcases serve_cases (positive call.bucketNamespace) (served limits (calls.filter (·.bucketKey = call.bucketKey))) with
          ⟨full', -⟩ | ⟨-, passed'⟩
        · rw [buckets] at full'
          exact absurd full' (not_le.mpr room)
        · rw [passed, passed', buckets]
          refine ⟨?_, ?_⟩
          · dsimp only
            rw [Function.update_self, Function.update_self]
          · rw [List.filter_append, accepted, List.filter_cons_of_pos (by simp), List.filter_nil]
    · rw [List.filter_cons_of_neg (by simpa using same), List.filter_nil, List.append_nil]
      rcases serve_cases (positive call.bucketNamespace) (served limits calls) with ⟨-, turned⟩ | ⟨-, passed⟩
      · rw [turned]
        exact ⟨buckets.trans (Function.update_of_ne (Ne.symm same) _ _).symm, accepted⟩
      · rw [passed, List.filter_append, List.filter_cons_of_neg (by simpa using same), List.filter_nil, List.append_nil]
        exact ⟨buckets.trans (Function.update_of_ne (Ne.symm same) _ _).symm, accepted⟩

end Buckets

section Limits
variable {limits : String → Int} {before after calls : List Call} {call : Call}

/-- Where keys are distinct, the calls counted together are those of one bucket. -/
theorem letThrough_eq (distinct : ∀ other ∈ calls, other.bucketKey = call.bucketKey → Call.Together other call)
    (p : Rat → Prop) [DecidablePred p] :
    (letThrough limits calls call p).length = ((times (served limits calls) call.bucketKey).filter (p ·)).length := by
  have kept : letThrough limits calls call p =
      ((served limits calls).accepted.filter (·.bucketKey = call.bucketKey)).filter (p ·.now) := by
    rw [letThrough, List.filter_filter]
    apply List.filter_congr
    intro other member
    rw [← Bool.decide_and, decide_eq_decide, and_comm]
    refine and_congr_right fun _ => ⟨?_, distinct other ((accepted_sublist limits calls).subset member)⟩
    rintro ⟨sameName, sameClient⟩
    rw [Call.bucketKey, Call.bucketKey, sameName, sameClient]
  rw [kept, times, List.filter_map, List.length_map]
  rfl

/-- With one limit for each namespace and distinct keys, every call of a run in the order of the clock is limited exactly. -/
theorem rate_limit_exact (limits : String → Int) (positive : ∀ name, 1 ≤ limits name) (before : List Call) (call : Call)
    (after : List Call) (inOrder : (before ++ call :: after).Pairwise fun first second => first.now ≤ second.now)
    (distinct : ∀ first ∈ before ++ call :: after, ∀ second ∈ before ++ call :: after,
      first.bucketKey = second.bucketKey → Call.Together first second) : Limited limits before call after := by
  have listed : call ∈ before ++ call :: after := by simp
  have apart : ∀ other ∈ before ++ call :: after, other.bucketKey = call.bucketKey → Call.Together other call :=
    fun other member same => distinct other member call listed same
  have apart' : ∀ other ∈ before, other.bucketKey = call.bucketKey → Call.Together other call :=
    fun other member => apart other (List.mem_append_left _ member)
  have sameLimit : ∀ other ∈ before ++ call :: after, other.bucketKey = call.bucketKey →
      limits other.bucketNamespace = limits call.bucketNamespace := by
    intro other member same
    rw [(apart other member same).1]
  have allowed : 0 ≤ limits call.bucketNamespace := zero_le_one.trans (positive _)
  have windowed (p : Rat → Prop) [DecidablePred p] (narrow : ∀ first second, p first → p second → second - first < windowSeconds) :
      ((letThrough limits (before ++ call :: after) call p).length : Int) ≤ limits call.bucketNamespace := by
    rw [letThrough_eq apart]
    exact counted_le positive inOrder p narrow sameLimit allowed
  obtain ⟨earlier, -, upTo⟩ := List.pairwise_append.mp inOrder
  have upTo : ∀ other ∈ before, other.now ≤ call.now := fun other member => upTo other member call List.mem_cons_self
  refine ⟨?_, ?_, ?_, ?_⟩
  · rw [rejected_iff positive earlier upTo, letThrough_eq apart']
    have same : (times (served limits before) call.bucketKey).filter (call.now - · < windowSeconds) =
        (times (served limits before) call.bucketKey).filter fun time => call.now - 60 < time ∧ time ≤ call.now := by
      apply List.filter_congr
      intro time member
      obtain ⟨other, passed, rfl⟩ := List.mem_map.mp member
      have old := upTo other ((accepted_sublist limits before).subset (List.mem_of_mem_filter passed))
      rw [decide_eq_decide, windowSeconds]
      constructor
      · intro recent
        exact ⟨by linarith, old⟩
      · rintro ⟨recent, -⟩
        linarith
    rw [same]
  · intro start
    apply windowed
    intro first second inFirst inSecond
    rw [windowSeconds]
    linarith [inFirst.1, inSecond.2]
  · intro start
    apply windowed
    intro first second inFirst inSecond
    rw [windowSeconds]
    linarith [inFirst.1, inSecond.2]
  · have same : ∀ other ∈ before ++ call :: after,
        decide (Call.Together other call) = decide (other.bucketKey = call.bucketKey) := by
      intro other member
      rw [decide_eq_decide]
      refine ⟨?_, apart other member⟩
      rintro ⟨sameName, sameClient⟩
      rw [Call.bucketKey, Call.bucketKey, sameName, sameClient]
    rw [List.filter_congr same, (served_filter positive _ _).2]
    apply List.filter_congr
    intro other member
    exact (same other ((accepted_sublist limits _).subset member)).symm

/-- A client that asks three times within a minute where two calls are allowed. -/
def sampleCall (now : Rat) : Call := ⟨⟨some "client:7", none, none⟩, "integration-data", now⟩

theorem sample_rate_limit : Limited (fun _ => 2) [sampleCall 0, sampleCall 30] (sampleCall 59) [sampleCall 60] := by
  refine rate_limit_exact (fun _ => 2) (fun _ => by decide) _ _ _ ?_ ?_
  · decide
  · decide

end Limits

end Dagmar.RateLimits.Proofs
