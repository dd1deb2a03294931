import Dagmar.Proofs.AutomaticPauses

/-! Backfilling the missing pauses of a month twice. The first run places its
pauses by the whole session; the second run sees the parts that they leave, and
each part is measured by itself. -/

namespace Dagmar.Proofs
open Library Library.Calendar Library.Outcome Library.Pairing

section Plans
variable {rangeStart rangeEnd : Int} {session : List WorkInterval} {additions : List Int}

theorem sessionAdditions_eq_some : sessionAdditions rangeStart rangeEnd session = some additions ↔
    ¬ (sessionEnd session ≤ rangeStart ∨ rangeEnd ≤ sessionStart session) ∧ missingMinutes session ≠ 0 ∧
      placeBreaks session (sessionStart session) (requiredBreaks session) 0 (missingMinutes session) = (additions, 0) := by
  unfold sessionAdditions
  split
  next outside => exact iff_of_false (by simp) fun all => all.1 outside
  next inside =>
    split
    next enough => exact iff_of_false (by simp) fun all => all.2.1 enough
    next missing =>
      dsimp only
      generalize placeBreaks session (sessionStart session) (requiredBreaks session) 0 (missingMinutes session) = placed
      obtain ⟨times, remaining⟩ := placed
      by_cases done : remaining = 0
      · simp [done, inside, missing]
      · simp [done]

/-- A session that lacks no minutes is left as it is. -/
theorem sessionAdditions_enough (enough : missingMinutes session = 0) : sessionAdditions rangeStart rangeEnd session = none := by
  rw [sessionAdditions, if_pos enough]
  split <;> rfl

/-- The pauses that a run gives to a session. -/
def planned (rangeStart rangeEnd : Int) (session : List WorkInterval) : List (Int × Int) :=
  ((sessionAdditions rangeStart rangeEnd session).map pairUp).getD []

theorem mem_planned {pause : Int × Int} (member : pause ∈ planned rangeStart rangeEnd session) :
    ∃ interval ∈ session, interval.start < pause.1 ∧ pause.1 < pause.2 ∧ pause.2 < interval.finish := by
  cases given : sessionAdditions rangeStart rangeEnd session with
  | none =>
    rw [planned, given] at member
    cases member
  | some additions =>
    rw [planned, given] at member
    obtain ⟨-, -, placed⟩ := sessionAdditions_eq_some.mp given
    have listed : pause ∈ pairUp (placeBreaks session (sessionStart session) (requiredBreaks session) 0
      (missingMinutes session)).1 := placed ▸ member
    exact placeBreaks_inside listed

/-- The groups hold the pauses of all sessions. -/
theorem planned_groups (intervals : List WorkInterval) : (missingBreakEventGroups intervals rangeStart rangeEnd).flatMap pairUp =
    (workSessions intervals).flatMap (planned rangeStart rangeEnd) := by
  rw [missingBreakEventGroups]
  induction workSessions intervals with
  | nil => rfl
  | cons session sessions ih =>
    rw [List.flatMap_cons, ← ih, planned]
    cases given : sessionAdditions rangeStart rangeEnd session with
    | none => rw [List.filterMap_cons_none given]; rfl
    | some additions => rw [List.filterMap_cons_some given]; rfl

/-- A session that gets pauses gets at least one. -/
theorem additions_nonempty (given : sessionAdditions rangeStart rangeEnd session = some additions) :
    pairUp additions ≠ [] := by
  obtain ⟨-, missing, placed⟩ := sessionAdditions_eq_some.mp given
  cases count : requiredBreaks session with
  | zero =>
    rw [count, placeBreaks] at placed
    exact absurd (Prod.mk.inj placed).2 missing
  | succ count' =>
    rw [count, placeBreaks] at placed
    dsimp only at placed
    split at placed
    · exact absurd (Prod.mk.inj placed).2 missing
    · split at placed
      · exact absurd (Prod.mk.inj placed).2 missing
      · obtain ⟨rfl, -⟩ := Prod.mk.inj placed
        simp

end Plans

section Fresh
variable {rangeStart rangeEnd : Int} {intervals : List WorkInterval}

/-- Pauses that meet no other time are all inserted. -/
theorem freshGroups_all {existing : List Int} {groups : List (List Int)} (some' : ∀ group ∈ groups, pairUp group ≠ [])
    (fresh : ∀ group ∈ groups, ∀ wall ∈ pauseWalls (pairUp group), wall ∉ existing)
    (apart : groups.Pairwise fun left right =>
      ∀ wall ∈ pauseWalls (pairUp left), ∀ other ∈ pauseWalls (pairUp right), wall < other) :
    Admin.freshGroups existing groups = groups.map pairUp := by
  induction groups generalizing existing with
  | nil => rfl
  | cons group groups ih =>
    obtain ⟨nonempty, some'⟩ := List.forall_mem_cons.mp some'
    obtain ⟨here, fresh⟩ := List.forall_mem_cons.mp fresh
    obtain ⟨before, apart⟩ := List.pairwise_cons.mp apart
    have kept : Admin.freshPairs existing group = pairUp group := by
      rw [Admin.freshPairs, List.filter_eq_self]
      intro pause member
      rw [decide_eq_true_eq]
      exact ⟨here _ (mem_pauseWalls.mpr ⟨pause, member, .inl rfl⟩), here _ (mem_pauseWalls.mpr ⟨pause, member, .inr rfl⟩)⟩
    rw [Admin.freshGroups, kept, if_neg nonempty, List.map_cons, ih some' ?_ apart]
    intro other listed wall member inside
    rcases List.mem_append.mp inside with old | new
    · exact fresh other listed wall member old
    · have := before other listed wall new wall member
      omega

theorem sessions_flatten (apart : Apart intervals) : (workSessions intervals).flatten = intervals := by
  rw [workSessions_apart apart, List.flatten_splitBy]

/-- Sessions follow one another. -/
theorem sessions_apart (apart : Apart intervals) : (workSessions intervals).Pairwise fun left right =>
    ∀ interval ∈ left, ∀ other ∈ right, interval.finish < other.start := by
  have whole := apart.2
  rw [← sessions_flatten apart, List.pairwise_flatten] at whole
  exact whole.2

theorem session_shape (apart : Apart intervals) {session : List WorkInterval} (listed : session ∈ workSessions intervals) :
    Apart session ∧ session ≠ [] ∧ session.IsChain fun left right => close left right := by
  have within := fun interval (member : interval ∈ session) => apart.1 interval (mem_workSessions listed member)
  have whole := apart.2
  rw [← sessions_flatten apart, List.pairwise_flatten] at whole
  have pairwise := whole.1 session listed
  rw [workSessions_apart apart] at listed
  exact ⟨⟨within, pairwise⟩, List.ne_nil_of_mem_splitBy listed, List.isChain_of_mem_splitBy listed⟩

/-- The pauses of different sessions follow one another. -/
theorem groups_apart (apart : Apart intervals) :
    (missingBreakEventGroups intervals rangeStart rangeEnd).Pairwise fun left right =>
      ∀ wall ∈ pauseWalls (pairUp left), ∀ other ∈ pauseWalls (pairUp right), wall < other := by
  rw [missingBreakEventGroups, List.pairwise_filterMap]
  refine (sessions_apart apart).imp ?_
  intro left right before additions given additions' given' wall member other member'
  obtain ⟨pause, listed, ends⟩ := mem_pauseWalls.mp member
  obtain ⟨pause', listed', ends'⟩ := mem_pauseWalls.mp member'
  obtain ⟨interval, held, bounds⟩ := mem_planned (by rw [planned, given]; exact listed)
  obtain ⟨interval', held', bounds'⟩ := mem_planned (by rw [planned, given']; exact listed')
  have := before interval held interval' held'
  omega

/-- No time of an employment falls inside one of its intervals, so every planned pause is inserted. -/
theorem freshGroups_planned {events : List AttendanceEvent} (distinct : Distinct events) :
    Admin.freshGroups (events.map (·.occurredAt.wall)) (missingBreakEventGroups (pairEvents events) rangeStart rangeEnd) =
      (missingBreakEventGroups (pairEvents events) rangeStart rangeEnd).map pairUp := by
  apply freshGroups_all _ _ (groups_apart (pairEvents_apart distinct))
  · intro group listed
    obtain ⟨session, -, given⟩ := List.mem_filterMap.mp listed
    exact additions_nonempty given
  · intro group listed wall member stored
    obtain ⟨pause, paired, ends⟩ := mem_pauseWalls.mp member
    obtain ⟨interval, worked, bounds⟩ := mem_missingBreakEventGroups listed paired
    obtain ⟨event, held, rfl⟩ := List.mem_map.mp stored
    exact interval_split held (by rcases ends with same | same <;> omega) worked

theorem missingPauses_planned {events : List AttendanceEvent} (distinct : Distinct events) (start finish : Int) :
    missingPauses events start finish =
      (workSessions (pairEvents events)).flatMap (planned (midnight start) (midnight finish)) := by
  rw [missingPauses, missingGroups, freshGroups_planned distinct, ← List.flatMap_def]
  exact planned_groups (pairEvents events)

end Fresh

section Parts
variable {rangeStart rangeEnd : Int} {intervals session : List WorkInterval}

theorem planned_inside (rangeStart rangeEnd : Int) (intervals : List WorkInterval) :
    Inside ((workSessions intervals).flatMap (planned rangeStart rangeEnd)) intervals := by
  intro pause member
  obtain ⟨session, listed, given⟩ := List.mem_flatMap.mp member
  obtain ⟨interval, held, bounds⟩ := mem_planned given
  exact ⟨interval, mem_workSessions listed held, bounds⟩

/-- A session is cut by its own pauses only. -/
theorem cutSession_planned (apart : Apart intervals)
    (distinct : (pauseWalls ((workSessions intervals).flatMap (planned rangeStart rangeEnd))).Nodup)
    (listed : session ∈ workSessions intervals) :
    cutSession ((workSessions intervals).flatMap (planned rangeStart rangeEnd)) session =
      cutSession (planned rangeStart rangeEnd session) session := by
  apply List.flatMap_congr
  intro interval member
  have own : (pauseWalls (planned rangeStart rangeEnd session)).Nodup := by
    rw [pauseWalls, List.flatMap_assoc, List.nodup_flatMap] at distinct
    exact distinct.1 session listed
  have same : between (pauseWalls ((workSessions intervals).flatMap (planned rangeStart rangeEnd)))
      (interval.start, interval.finish) =
        between (pauseWalls (planned rangeStart rangeEnd session)) (interval.start, interval.finish) := by
    apply insertionSort_congr _ (distinct.filter _) (own.filter _) _ fun _ _ _ _ => le_antisymm
    intro wall
    rw [List.mem_filter, List.mem_filter, decide_eq_true_eq]
    refine and_congr_left fun within => ⟨?_, ?_⟩
    · intro given
      obtain ⟨pause, held, ends⟩ := mem_pauseWalls.mp given
      obtain ⟨other, listed', planned'⟩ := List.mem_flatMap.mp held
      obtain ⟨interval', worked, bounds⟩ := mem_planned planned'
      -- Two intervals that hold the same pause are one, and it lies in one session.
      have meet : interval = interval' := by
        rcases apart.disjoint (mem_workSessions listed member) (mem_workSessions listed' worked) with equal | before | after
        · exact equal
        · omega
        · omega
      have single : session = other := by
        by_contra different
        have nodup := apart.nodup
        rw [← sessions_flatten apart, List.nodup_flatten] at nodup
        have symmetric : Std.Symm (List.Disjoint (α := WorkInterval)) := ⟨fun _ _ => List.Disjoint.symm⟩
        exact nodup.2.forall listed listed' different member (meet ▸ worked)
      exact mem_pauseWalls.mpr ⟨pause, single ▸ planned', ends⟩
    · intro given
      obtain ⟨pause, held, ends⟩ := mem_pauseWalls.mp given
      exact mem_pauseWalls.mpr ⟨pause, List.mem_flatMap.mpr ⟨session, listed, held⟩, ends⟩
  rw [cutInterval, cutInterval, cutPair, cutPair, same]

/-- The second run finds nothing exactly when no part of any session gets a pause. -/
theorem backfilled_nil_iff (apart : Apart intervals)
    (distinct : (pauseWalls ((workSessions intervals).flatMap (planned rangeStart rangeEnd))).Nodup) :
    missingBreakEventGroups (cutSession ((workSessions intervals).flatMap (planned rangeStart rangeEnd)) intervals)
        rangeStart rangeEnd = [] ↔
      ∀ session ∈ workSessions intervals, ∀ part ∈ sessionParts (planned rangeStart rangeEnd session) session,
        sessionAdditions rangeStart rangeEnd part = none := by
  rw [missingBreakEventGroups, workSessions_paused (planned_inside rangeStart rangeEnd intervals) apart distinct, List.filterMap_eq_nil_iff]
  simp only [List.mem_flatMap, forall_exists_index, and_imp]
  rw [forall_comm]
  refine forall_congr' fun session => ?_
  rw [forall_comm]
  refine forall_congr' fun listed => forall_congr' fun part => ?_
  rw [sessionParts, sessionParts, cutSession_planned apart distinct listed]

end Parts

section Few
variable {rangeStart rangeEnd : Int} {session : List WorkInterval} {additions : List Int}

theorem existingBreakMinutes_cons (first second : WorkInterval) (rest : List WorkInterval) :
    existingBreakMinutes (first :: second :: rest) =
      max 0 ((second.start - first.finish) / minute) + existingBreakMinutes (second :: rest) := rfl

theorem existingBreakMinutes_nonneg (session : List WorkInterval) : 0 ≤ existingBreakMinutes session := by
  apply List.sum_nonneg
  intro gap member
  obtain ⟨pair, -, rfl⟩ := List.mem_map.mp member
  exact le_max_left _ _

/-- Only the end of the first interval counts. -/
theorem existingBreakMinutes_head {first other : WorkInterval} (same : first.finish = other.finish) (rest : List WorkInterval) :
    existingBreakMinutes (first :: rest) = existingBreakMinutes (other :: rest) := by
  cases rest with
  | nil => rfl
  | cons second rest => rw [existingBreakMinutes_cons, existingBreakMinutes_cons, same]

/-- A pause inside an interval adds its minutes to those of the session. -/
theorem existingBreakMinutes_cut (front back : List WorkInterval) (start placement finish minutes : Int) (some' : 0 ≤ minutes) :
    existingBreakMinutes (front ++ ⟨start, placement⟩ :: ⟨placement + minutes * minute, finish⟩ :: back) =
      existingBreakMinutes (front ++ ⟨start, finish⟩ :: back) + minutes := by
  induction front with
  | nil =>
    have gap : max 0 ((placement + minutes * minute - placement) / minute) = minutes := by
      rw [add_sub_cancel_left, Int.mul_ediv_cancel _ (by decide), max_eq_right some']
    have rest : existingBreakMinutes (⟨placement + minutes * minute, finish⟩ :: back) =
        existingBreakMinutes (⟨start, finish⟩ :: back) := existingBreakMinutes_head (by rfl) back
    rw [List.nil_append, List.nil_append, existingBreakMinutes_cons, gap, rest, add_comm]
  | cons first front ih =>
    cases front with
    | nil =>
      simp only [List.cons_append, List.nil_append] at ih ⊢
      rw [existingBreakMinutes_cons, ih, existingBreakMinutes_cons first ⟨start, finish⟩, add_assoc]
    | cons second front =>
      simp only [List.cons_append] at ih ⊢
      rw [existingBreakMinutes_cons, ih, existingBreakMinutes_cons first second, add_assoc]

/-- One pause is enough for what a session lacks. -/
theorem additions_single (given : sessionAdditions rangeStart rangeEnd session = some additions)
    (few : missingMinutes session ≤ 30) :
    ∃ placement, breakPlacement (sessionStart session + 360 * minute) (missingMinutes session) session none = some placement ∧
      pairUp additions = [(placement, placement + missingMinutes session * minute)] := by
  obtain ⟨-, missing, placed⟩ := sessionAdditions_eq_some.mp given
  have nonneg : 0 ≤ missingMinutes session := le_max_left _ _
  cases count : requiredBreaks session with
  | zero =>
    rw [count, placeBreaks] at placed
    exact absurd (Prod.mk.inj placed).2 missing
  | succ count' =>
    have whole : min 30 (missingMinutes session) = missingMinutes session := min_eq_right few
    rw [count, placeBreaks, whole] at placed
    dsimp only at placed
    rw [if_neg (by omega), sub_self] at placed
    have rest : placeBreaks session (sessionStart session) count' (0 + 1) 0 = ([], 0) := by
      cases count' with
      | zero => rfl
      | succ count' => rfl
    rw [rest] at placed
    split at placed
    · exact absurd (Prod.mk.inj placed).2 missing
    next placement found =>
      obtain ⟨rfl, -⟩ := Prod.mk.inj placed
      exact ⟨placement, found, rfl⟩

/-- A pause cuts the interval it lies in. -/
theorem cutSession_single {front back : List WorkInterval} {interval : WorkInterval} (pause : Int × Int)
    (apart : Apart (front ++ interval :: back)) (inside : interval.start < pause.1 ∧ pause.1 < pause.2 ∧ pause.2 < interval.finish) :
    cutSession [pause] (front ++ interval :: back) =
      front ++ ⟨interval.start, pause.1⟩ :: ⟨pause.2, interval.finish⟩ :: back := by
  have walls : pauseWalls [pause] = [pause.1, pause.2] := rfl
  have untouched (others : List WorkInterval)
      (away : ∀ other ∈ others, other.finish < interval.start ∨ interval.finish < other.start) :
      others.flatMap (cutInterval [pause]) = others := by
    have each : ∀ other ∈ others, cutInterval [pause] other = [other] := by
      intro other member
      apply cutInterval_untouched
      intro wall listed
      have := away other member
      rw [walls, List.mem_pair] at listed
      rcases listed with rfl | rfl <;> omega
    rw [List.flatMap_congr each, List.flatMap_singleton']
  have cut : cutInterval [pause] interval = [⟨interval.start, pause.1⟩, ⟨pause.2, interval.finish⟩] := by
    have held : between (pauseWalls [pause]) (interval.start, interval.finish) = [pause.1, pause.2] := by
      have sorted : [pause.1, pause.2].insertionSort (· ≤ ·) = [pause.1, pause.2] := by
        apply List.Pairwise.insertionSort_eq
        simp [inside.2.1.le]
      rw [between, walls, List.filter_eq_self.mpr, sorted]
      intro wall listed
      rw [List.mem_pair] at listed
      rw [decide_eq_true_eq]
      rcases listed with rfl | rfl <;> constructor <;> dsimp only <;> omega
    rw [cutInterval, cutPair, held]
    rfl
  obtain ⟨-, rest, below⟩ := List.pairwise_append.mp apart.2
  rw [List.pairwise_cons] at rest
  rw [cutSession, List.flatMap_append, List.flatMap_cons, cut,
    untouched front fun other member => .inl (below other member interval List.mem_cons_self),
    untouched back fun other member => .inr (rest.1 other member)]
  rfl

/-- The last piece of a chain of close intervals may be replaced by two close ones within the same ends. -/
theorem chain_cut {front back : List WorkInterval} {interval first second : WorkInterval}
    (chain : (front ++ interval :: back).IsChain fun left right => close left right)
    (starts : first.start = interval.start) (ends : second.finish = interval.finish) (near : close first second) :
    (front ++ first :: second :: back).IsChain fun left right => close left right := by
  rw [List.isChain_append, List.isChain_cons] at chain
  rw [List.isChain_append, List.isChain_cons, List.isChain_cons]
  obtain ⟨before, ⟨next, after⟩, middle⟩ := chain
  refine ⟨before, ⟨?_, ?_, after⟩, ?_⟩
  · intro right same
    rw [List.head?_cons, Option.mem_some_iff] at same
    exact same ▸ near
  · intro right same
    have := next right same
    unfold close at this ⊢
    rw [ends]
    exact this
  · intro left last right same
    have := middle left last interval rfl
    rw [List.head?_cons, Option.mem_some_iff] at same
    unfold close at this ⊢
    rw [← same, starts]
    exact this

/-- A session that lacked less than half an hour is left whole and lacks nothing. -/
theorem parts_of_few (apart : Apart session) (chain : session.IsChain fun left right => close left right)
    (given : sessionAdditions rangeStart rangeEnd session = some additions) (few : missingMinutes session < 30) :
    ∀ part ∈ sessionParts (pairUp additions) session, sessionAdditions rangeStart rangeEnd part = none := by
  obtain ⟨placement, found, same⟩ := additions_single given (by omega)
  have missing : 0 < missingMinutes session := by
    have nonneg : 0 ≤ missingMinutes session := le_max_left _ _
    have := (sessionAdditions_eq_some.mp given).2.1
    omega
  rcases breakPlacement_inside found with impossible | ⟨interval, member, low, high⟩
  · cases impossible
  obtain ⟨front, back, rfl⟩ := List.append_of_mem member
  have inside : interval.start < placement ∧ placement < placement + missingMinutes (front ++ interval :: back) * minute ∧
      placement + missingMinutes (front ++ interval :: back) * minute < interval.finish := by
    generalize missingMinutes (front ++ interval :: back) = minutes at missing high ⊢
    simp only [minute] at low high ⊢
    omega
  have cut := cutSession_single (placement, placement + missingMinutes (front ++ interval :: back) * minute) apart inside
  have near : close ⟨interval.start, placement⟩
      ⟨placement + missingMinutes (front ++ interval :: back) * minute, interval.finish⟩ = true := by
    generalize missingMinutes (front ++ interval :: back) = minutes at few ⊢
    refine decide_eq_true ?_
    simp only [minute]
    omega
  intro part listed
  rw [sessionParts, same, cut, List.splitBy_of_isChain (by simp) (chain_cut chain (by rfl) (by rfl) near)] at listed
  rw [List.mem_singleton.mp listed]
  apply sessionAdditions_enough
  have starts : sessionStart (front ++ ⟨interval.start, placement⟩ ::
      ⟨placement + missingMinutes (front ++ interval :: back) * minute, interval.finish⟩ :: back) =
        sessionStart (front ++ interval :: back) := by
    cases front <;> rfl
  have ends : sessionEnd (front ++ ⟨interval.start, placement⟩ ::
      ⟨placement + missingMinutes (front ++ interval :: back) * minute, interval.finish⟩ :: back) =
        sessionEnd (front ++ interval :: back) := by
    simp only [sessionEnd, List.getLast?_append, List.getLast?_cons]
    cases back.getLast? <;> rfl
  have required : requiredBreaks (front ++ ⟨interval.start, placement⟩ ::
      ⟨placement + missingMinutes (front ++ interval :: back) * minute, interval.finish⟩ :: back) =
        requiredBreaks (front ++ interval :: back) := by
    rw [requiredBreaks, requiredBreaks, starts, ends]
  have existing := existingBreakMinutes_cut front back interval.start placement interval.finish
    (missingMinutes (front ++ interval :: back)) missing.le
  have lacks : missingMinutes (front ++ interval :: back) =
      max 0 (requiredBreaks (front ++ interval :: back) * 30 - existingBreakMinutes (front ++ interval :: back)) := rfl
  rw [missingMinutes, required, existing]
  have shape : (⟨interval.start, interval.finish⟩ : WorkInterval) = interval := rfl
  rw [shape]
  omega

/-- A session without gaps is one interval. -/
theorem session_single (apart : Apart session) (nonempty : session ≠ [])
    (aligned : ∀ interval ∈ session, interval.start % minute = 0 ∧ interval.finish % minute = 0)
    (unbroken : existingBreakMinutes session = 0) : ∃ interval, session = [interval] := by
  match session, nonempty with
  | [interval], _ => exact ⟨interval, rfl⟩
  | first :: second :: rest, _ =>
    have gap := (List.pairwise_cons.mp apart.2).1 second List.mem_cons_self
    have ends := (aligned first (by simp)).2
    have starts := (aligned second (by simp)).1
    have positive : 1 ≤ (second.start - first.finish) / minute := by
      simp only [minute] at ends starts ⊢
      omega
    have later := existingBreakMinutes_nonneg (second :: rest)
    rw [existingBreakMinutes_cons] at unbroken
    omega

theorem requiredBreaks_single {interval : WorkInterval} :
    requiredBreaks [interval] = (breakSegments ((interval.finish - interval.start) / minute)).2 := rfl

/-- Six hours of work need no pause. -/
theorem sessionAdditions_short {interval : WorkInterval} (short : (interval.finish - interval.start) / minute ≤ 360) :
    sessionAdditions rangeStart rangeEnd [interval] = none := by
  apply sessionAdditions_enough
  have none : requiredBreaks [interval] = 0 := by
    rw [requiredBreaks_single, breakSegments, if_pos short]
  have unbroken : existingBreakMinutes [interval] = 0 := rfl
  rw [missingMinutes, none, unbroken]
  rfl

/-- A session that needed one pause falls into two parts that need none. -/
theorem parts_of_one (apart : Apart session) (nonempty : session ≠ [])
    (aligned : ∀ interval ∈ session, interval.start % minute = 0 ∧ interval.finish % minute = 0)
    (given : sessionAdditions rangeStart rangeEnd session = some additions) (one : requiredBreaks session ≤ 1)
    (half : 30 ≤ missingMinutes session) :
    ∀ part ∈ sessionParts (pairUp additions) session, sessionAdditions rangeStart rangeEnd part = none := by
  have nonneg := existingBreakMinutes_nonneg session
  have lacks : missingMinutes session = max 0 (requiredBreaks session * 30 - existingBreakMinutes session) := rfl
  have all : requiredBreaks session = 1 ∧ existingBreakMinutes session = 0 ∧ missingMinutes session = 30 := by omega
  obtain ⟨required, unbroken, missing⟩ := all
  obtain ⟨interval, rfl⟩ := session_single apart nonempty aligned unbroken
  obtain ⟨placement, found, same⟩ := additions_single given missing.le
  rw [missing] at found same
  obtain ⟨starts, ends⟩ := aligned interval (by simp)
  -- One pause is enough up to twelve and a half hours.
  have length : 360 < (interval.finish - interval.start) / minute ∧ (interval.finish - interval.start) / minute ≤ 750 := by
    rw [requiredBreaks_single] at required
    by_cases short : (interval.finish - interval.start) / minute ≤ 360
    · rw [breakSegments, if_pos short] at required
      cases required
    · obtain ⟨fits, -⟩ := breakCount_long (not_le.mp short)
      rw [breakSegments, if_neg short] at required
      dsimp only at required
      rw [required] at fits
      unfold WorkFits at fits
      push_cast at fits
      omega
  have place : placement = min (interval.start + 360 * minute) (interval.finish - 31 * minute) := by
    have start : sessionStart [interval] = interval.start := rfl
    rw [start] at found
    simp only [breakPlacement] at found
    have room : interval.start + minute ≤ interval.finish - (30 + 1) * minute := by
      simp only [minute] at length starts ends ⊢
      omega
    have target : max (interval.start + 360 * minute) (interval.start + minute) = interval.start + 360 * minute := by
      apply max_eq_left
      simp only [minute]
      omega
    rw [if_pos room, target, ite_self, Option.some.injEq] at found
    exact found.symm
  have inside : interval.start < placement ∧ placement < placement + 30 * minute ∧
      placement + 30 * minute < interval.finish := by
    rw [place]
    simp only [minute] at length starts ends ⊢
    omega
  have whole : Apart ([] ++ interval :: []) := apart
  have cut := cutSession_single (placement, placement + 30 * minute) whole inside
  have halves (left right : WorkInterval) (gap : right.start - left.finish = 30 * minute) :
      [left, right].splitBy close = [[left], [right]] := by
    refine List.splitBy_append_cons [] ?_ (l := [left])
    intro other last
    rw [List.getLast?_singleton, Option.mem_some_iff] at last
    subst last
    exact decide_eq_false (by omega)
  intro part listed
  rw [List.nil_append, List.nil_append] at cut
  rw [sessionParts, same, cut, halves _ _ (add_sub_cancel_left _ _), List.mem_pair] at listed
  rcases listed with rfl | rfl
  · apply sessionAdditions_short
    rw [place]
    simp only [minute] at length starts ends ⊢
    omega
  · apply sessionAdditions_short
    rw [place]
    simp only [minute] at length starts ends ⊢
    omega

/-- The parts of a session need no pause, unless it needs several and lacks half an hour. -/
def PartsSuffice (rangeStart rangeEnd : Int) (session : List WorkInterval) : Prop :=
  2 ≤ requiredBreaks session → 30 ≤ missingMinutes session →
    ∀ part ∈ sessionParts (planned rangeStart rangeEnd session) session, sessionAdditions rangeStart rangeEnd part = none

theorem partsSuffice_iff (apart : Apart session) (nonempty : session ≠ [])
    (chain : session.IsChain fun left right => close left right)
    (aligned : ∀ interval ∈ session, interval.start % minute = 0 ∧ interval.finish % minute = 0) :
    (∀ part ∈ sessionParts (planned rangeStart rangeEnd session) session, sessionAdditions rangeStart rangeEnd part = none) ↔
      PartsSuffice rangeStart rangeEnd session := by
  refine ⟨fun none _ _ => none, fun suffice => ?_⟩
  cases given : sessionAdditions rangeStart rangeEnd session with
  | none =>
    have uncut : cutSession [] session = session := by
      have each : ∀ interval ∈ session, cutInterval [] interval = [interval] := fun _ _ => rfl
      rw [cutSession, List.flatMap_congr each, List.flatMap_singleton']
    intro part listed
    rw [planned, given] at listed
    rw [Option.map_none, Option.getD_none, sessionParts, uncut, List.splitBy_of_isChain nonempty chain] at listed
    rw [List.mem_singleton.mp listed]
    exact given
  | some additions =>
    have plan : planned rangeStart rangeEnd session = pairUp additions := by rw [planned, given]; rfl
    unfold PartsSuffice at suffice
    rw [plan] at suffice ⊢
    by_cases few : missingMinutes session < 30
    · exact parts_of_few apart chain given few
    · by_cases one : requiredBreaks session ≤ 1
      · exact parts_of_one apart nonempty aligned given one (by omega)
      · exact suffice (by omega) (by omega)

end Few

section Requests
variable {zone : Zone} {clock : Clock} {db next flushed synced : Db} {body : Admin.AddBreaksIn} {counts : Admin.AddBreaksOut}
  {employment : Employment} {start finish : Int}

/-- No clock change touches a day: each of its wall times is read back as it was written. -/
def SteadyOn (zone : Zone) (date : Int) : Prop :=
  ∀ wall, dateOf wall = date → zone.toWall (zone.toUtc wall) = wall

/-- Backfilling once more answers that there was nothing to do, and leaves the events as they are. -/
def BackfillInert (zone : Zone) (clock : Clock) (db : Db) (body : Admin.AddBreaksIn) : Prop :=
  (∃ next, Admin.addMissingBreaks zone clock db body = .ok (next, ⟨0, 0, 0⟩)) ∧
    ∀ later next counts, Admin.addMissingBreaks zone later db body = .ok (next, counts) →
      counts = ⟨0, 0, 0⟩ ∧ next.events = db.events

/-- The unique constraint held when events were written. -/
theorem insertEvents_unique {employmentId : Int} {times : List Timestamp}
    (inserted : insertEvents db employmentId times = some flushed) :
    (flushed.events.rows.map fun event => (event.employmentId, event.occurredAt.utc)).Nodup := by
  simp only [insertEvents, Option.bind_eq_bind, Option.bind_eq_some_iff, Option.pure_def, Option.some.injEq] at inserted
  obtain ⟨table, written, rfl⟩ := inserted
  have rows := flushEvents_rows written
  unfold flushEvents at written
  split at written
  next unique =>
    dsimp only
    rw [rows]
    exact unique
  · cases written

/-- No instant is written twice. -/
theorem insertEvents_instants {employmentId : Int} {times : List Timestamp}
    (inserted : insertEvents db employmentId times = some flushed) : (times.map Timestamp.utc).Nodup := by
  have unique := insertEvents_unique inserted
  rw [(insertEvents_rows inserted).2, List.map_append, List.nodup_append] at unique
  have same : (times.mapIdx fun index time => (⟨db.nextEventId + index, employmentId, time⟩ : AttendanceEvent)).map
      (fun event => (event.employmentId, event.occurredAt.utc)) = (times.map Timestamp.utc).map fun utc => (employmentId, utc) := by
    apply List.ext_getElem?
    intro index
    simp only [List.getElem?_map, List.getElem?_mapIdx, Option.map_map]
    rfl
  rw [same] at unique
  exact unique.2.1.of_map _

/-- Writing no events succeeds on events that satisfy the constraint. -/
theorem insertEvents_nil (employmentId : Int)
    (unique : (db.events.rows.map fun event => (event.employmentId, event.occurredAt.utc)).Nodup) :
    insertEvents db employmentId [] = some db := by
  have flush : flushEvents (db.events.rows ++ []) = some db.events := by
    rw [List.append_nil, flushEvents, if_pos unique, dif_pos db.events.unique]
  have added : ([] : List Timestamp).mapIdx (fun index time => (⟨db.nextEventId + index, employmentId, time⟩ : AttendanceEvent)) =
    [] := rfl
  simp only [insertEvents, added, flush]
  simp

theorem backfilledDays_self (db : Db) (employmentId : Int) : backfilledDays db db employmentId = [] := by
  have none (intervals : List WorkInterval) : intervals.filter (· ∉ intervals) = [] := by
    rw [List.filter_eq_nil_iff]
    intro interval member
    simp [member]
  simp only [backfilledDays, changedEventDays, List.map_nil, List.nil_append]
  rw [none]
  rfl

/-- The database after a backfill whose pauses are read back as written. -/
theorem Backfill.frame (backfill : Backfill zone clock db next body counts employment start finish flushed synced)
    (rested : Rested zone db)
    (settled : ∀ wall ∈ pauseWalls (missingPauses (db.eventsOf employment.id) start finish), zone.Settled (zone.attach wall)) :
    Rested zone next ∧
      next = { db with events := flushed.events, metrics := next.metrics, nextEventId := flushed.nextEventId } := by
  have settled' : ∀ time ∈ (pauseWalls (missingPauses (db.eventsOf employment.id) start finish)).map zone.attach,
      zone.Settled time := by
    intro time member
    obtain ⟨wall, listed, rfl⟩ := List.mem_map.mp member
    exact settled wall listed
  obtain ⟨still, quiet, frame⟩ := insertion_settles backfill.inserted backfill.written rested settled'
  rw [← backfill.committed, still]
  exact ⟨quiet, frame⟩

/-- Another run does nothing exactly when it finds no session that lacks a pause it can place. -/
theorem Backfill.inert_iff (backfill : Backfill zone clock db next body counts employment start finish flushed synced)
    (rested : Rested zone db)
    (settled : ∀ wall ∈ pauseWalls (missingPauses (db.eventsOf employment.id) start finish), zone.Settled (zone.attach wall))
    (distinct : Distinct (next.eventsOf employment.id)) :
    BackfillInert zone clock next body ↔
      missingBreakEventGroups (pairEvents (next.eventsOf employment.id)) (midnight start) (midnight finish) = [] := by
  obtain ⟨quiet, frame⟩ := backfill.frame rested settled
  have staff : next.employments = db.employments := by rw [frame]
  have groups : missingGroups (next.eventsOf employment.id) start finish =
      (missingBreakEventGroups (pairEvents (next.eventsOf employment.id)) (midnight start) (midnight finish)).map pairUp :=
    freshGroups_planned distinct
  -- Whatever the second run is about, it is the same employment and the same month.
  have again {later : Clock} {after : Db} {counts' : Admin.AddBreaksOut} {employment' : Employment} {start' finish' : Int}
      {flushed' synced' : Db}
      (second : Backfill zone later next after body counts' employment' start' finish' flushed' synced') :
      employment' = employment ∧ start' = start ∧ finish' = finish := by
    have found := second.found
    rw [staff, backfill.found] at found
    have range := second.range
    rw [backfill.range] at range
    cases found
    cases range
    exact ⟨rfl, rfl, rfl⟩
  constructor
  · rintro ⟨⟨after, done⟩, -⟩
    obtain ⟨employment', start', finish', flushed', synced', second⟩ := addMissingBreaks_eq_ok.mp done
    obtain ⟨rfl, rfl, rfl⟩ := again second
    have count := second.counted
    rw [Admin.AddBreaksOut.mk.injEq, groups, List.length_map, List.length_eq_zero_iff] at count
    exact count.1
  · intro none
    have nothing : missingGroups (next.eventsOf employment.id) start finish = [] := by
      rw [groups, none]
      rfl
    have pauses : missingPauses (next.eventsOf employment.id) start finish = [] := by
      rw [missingPauses, nothing]
      rfl
    have unique : (next.events.rows.map fun event => (event.employmentId, event.occurredAt.utc)).Nodup := by
      have written := insertEvents_unique backfill.inserted
      rw [frame]
      exact written
    constructor
    · refine ⟨next, addMissingBreaks_eq_ok.mpr ⟨employment, start, finish, next, next, backfill.bounds, backfill.confirmed,
        staff ▸ backfill.found, ?_, ?_, backfill.range, ?_, ?_, ?_, ?_, ?_, ?_, commit_of_rested quiet, ?_⟩⟩
      · have := backfill.signedIn
        rw [frame]
        exact this
      · have := backfill.active
        rw [frame]
        exact this
      · have := backfill.month
        rw [frame]
        exact this
      · rw [pauses]
        exact fun month member => by cases member
      · rw [pauses]
        exact insertEvents_nil _ unique
      · rw [backfilledDays_self]
        rintro (⟨row, -, listed, -⟩ | ⟨plan, -, listed, -⟩) <;> cases listed
      · rw [backfilledDays_self]
        exact fun month member => by cases member
      · rw [backfilledDays_self]
        rfl
      · rw [nothing, pauses]
        rfl
    · intro later after counts' done
      obtain ⟨employment', start', finish', flushed', synced', second⟩ := addMissingBreaks_eq_ok.mp done
      obtain ⟨rfl, rfl, rfl⟩ := again second
      refine ⟨?_, ?_⟩
      · rw [← second.counted, nothing, pauses]
        rfl
      · have none' : ∀ wall ∈ pauseWalls (missingPauses (next.eventsOf employment'.id) start' finish'),
            zone.Settled (zone.attach wall) := by
          rw [pauses]
          exact fun wall member => by cases member
        obtain ⟨-, frame'⟩ := second.frame quiet none'
        have inserted := second.inserted
        rw [pauses] at inserted
        have same := Option.some.inj (inserted.symm.trans (insertEvents_nil _ unique))
        rw [frame', same]

/-- Times of 5 August 2026 in minutes after midnight, as they are stored. -/
def storedDay (minutes : List Int) : List AttendanceEvent :=
  minutes.mapIdx fun index wall => ⟨index + 1, 1, ⟨midnight 739833 + wall * minute, midnight 739833 + (wall - 120) * minute⟩⟩

/-- Work from eight in the morning to three in the afternoon. -/
def shortDayDb : Db := { sampleDb with events := ⟨storedDay [480, 900], by decide⟩, nextEventId := 3 }

/-- Work from midnight to two in the afternoon, with twenty minutes off at three in the morning. -/
def longDayDb : Db := { sampleDb with events := ⟨storedDay [0, 180, 200, 840], by decide⟩, nextEventId := 5 }

def sampleBreaks : Admin.AddBreaksIn := ⟨1, 2026, 8, true⟩

theorem sampleZone_steady : SteadyOn sampleZone 739833 := by
  intro wall today
  have change : march2026 = 739704 * day + 60 * minute := by decide
  simp only [sampleZone, pragueSpring, springWall, springUtc, change, dateOf, minute, day] at today ⊢
  split_ifs <;> omega

theorem storedDay_steady {db : Db} (sameDay : ∀ event ∈ db.eventsOf 1, event.occurredAt.date = 739833) :
    ∀ event ∈ db.eventsOf 1, SteadyOn sampleZone event.occurredAt.date := by
  intro event member
  rw [sameDay event member]
  exact sampleZone_steady

end Requests

end Dagmar.Proofs
