/-
# `VipProgress` — the way to the next level, as it is shown

Beside the level of a user the overview shows the next level that can be
reached, with every condition of its rule and a percentage.  The level is
computed from the statistics as they are; the view rounds a statistic to cents
before it compares, and the percentage to a whole number.  So a user who is half
a cent short of a threshold is shown as one who has met it, and one who has
99.5 % of it is shown at 100 %, at a level that the user does not hold.

`vip_progress_agrees_iff` says when the view and the level agree: the statistic
of the next rule that is short is short by more than half a cent, and is below
99.5 % of its threshold once it has been rounded.
-/
import Incudal.VipLevels
import Mathlib

namespace Incudal

/-! ## The view -/

inductive VipProgressMetric
  | totalRecharge | totalConsume | totalHostingIncome | instanceCount
deriving DecidableEq, Repr

structure VipProgressCondition where
  metric : VipProgressMetric
  current : ℚ
  target : ℚ
  remaining : ℚ
  matched : Bool
  progress : ℤ
deriving DecidableEq, Repr

structure VipLevelProgress where
  currentLevel : ℕ
  nextLevel : Option ℕ
  conditionMode : Option VipConditionMode
  userMetric : Option UserVipMetric
  progress : ℤ
  isMaxLevel : Bool
  conditions : List VipProgressCondition
deriving DecidableEq, Repr

def toProgressPercent (current target : ℚ) : ℤ :=
  if target ≤ 0 then 0 else max 0 (min 100 ⌊current / target * 100 + 1 / 2⌋)

def buildVipProgressCondition (metric : VipProgressMetric) (current target : ℚ) :
    VipProgressCondition :=
  let normalizedCurrent := roundAmount (max current 0)
  let normalizedTarget := roundAmount (max target 0)
  { metric
    current := normalizedCurrent
    target := normalizedTarget
    remaining := roundAmount (max (normalizedTarget - normalizedCurrent) 0)
    matched := decide (normalizedTarget ≤ normalizedCurrent)
    progress := toProgressPercent normalizedCurrent normalizedTarget }

/-- `hasThreshold(threshold) ? buildVipProgressCondition(…) : null`. -/
def thresholdCondition (metric : VipProgressMetric) (threshold : Option ℚ) (current : ℚ) :
    Option VipProgressCondition :=
  if hasThreshold threshold then threshold.map (buildVipProgressCondition metric current)
  else none

def getVipProgressConditions : (type : VipRuleType) → NormalizedVipRule → VipStats type →
    UserVipMetric → List VipProgressCondition
  | .user, rule, (userStats : UserVipStats), userMetric =>
      [if userMetric = .totalRecharge then
          thresholdCondition .totalRecharge rule.minRecharge userStats.totalRecharge
        else none,
        if userMetric = .totalConsume then
          thresholdCondition .totalConsume rule.minConsume userStats.totalConsume
        else none].reduceOption
  | .hosting, rule, (hostingStats : HostingVipStats), _ =>
      [thresholdCondition .totalHostingIncome rule.minHostingIncome
          hostingStats.totalHostingIncome,
        thresholdCondition .instanceCount (rule.minHostingInstances.map (↑))
          hostingStats.instanceCount].reduceOption

/-- The rules that the next level is taken from. -/
def isNextVipRule (type : VipRuleType) (currentLevel : ℕ) (userMetric : UserVipMetric)
    (rule : NormalizedVipRule) : Bool :=
  if rule.type ≠ type ∨ rule.enabled = false ∨ rule.level ≤ currentLevel then false
  else match type with
    | .user => hasUserMetricCondition rule userMetric
    | .hosting => hasActiveCondition .hosting rule

/-- The first of them, sorted by level. -/
def nextVipRule (type : VipRuleType) (rules : List NormalizedVipRule) (currentLevel : ℕ)
    (userMetric : UserVipMetric) : Option NormalizedVipRule :=
  ((rules.filter (isNextVipRule type currentLevel userMetric)).insertionSort
    fun a b => a.level ≤ b.level).head?

def calculateVipProgress (type : VipRuleType) (rules : List NormalizedVipRule)
    (currentLevel : ℕ) (stats : VipStats type)
    (userMetric : UserVipMetric := .totalRecharge) : VipLevelProgress :=
  let userMetric' := match type with
    | .user => some userMetric
    | .hosting => none
  match nextVipRule type rules currentLevel userMetric with
  | none =>
      { currentLevel
        nextLevel := none
        conditionMode := none
        userMetric := userMetric'
        progress := if currentLevel > 0 then 100 else 0
        isMaxLevel := decide (currentLevel > 0)
        conditions := [] }
  | some nextRule =>
      let conditions := getVipProgressConditions type nextRule stats userMetric
      let conditionProgressValues := conditions.map (·.progress)
      let progress :=
        if conditionProgressValues.length = 0 then 0
        else match nextRule.conditionMode with
          | .all => conditionProgressValues.min?.getD 0
          | .any => conditionProgressValues.max?.getD 0
      { currentLevel
        nextLevel := some nextRule.level
        conditionMode := some nextRule.conditionMode
        userMetric := userMetric'
        progress
        isMaxLevel := false
        conditions }

/-! ## What the view has to agree with -/

/-- The level that the overview computes. -/
def currentVipLevel : (type : VipRuleType) → List NormalizedVipRule → VipStats type →
    UserVipMetric → ℕ
  | .user, rules, stats, userMetric => calculateUserVipLevelByMetric rules stats userMetric
  | .hosting, rules, stats, _ => calculateVipLevel .hosting rules stats

/-- The checks that decide about the level. -/
def levelRuleChecks : (type : VipRuleType) → NormalizedVipRule → VipStats type →
    UserVipMetric → List Bool
  | .user, rule, stats, userMetric => getUserRuleChecks rule stats userMetric
  | .hosting, rule, stats, _ => getRuleChecks .hosting rule stats

/-- A condition is shown as met when its check passes, and the progress is full when the level
that is shown is held: the next level, or the present one when there is no next. -/
def VipProgressAgrees (type : VipRuleType) (rules : List NormalizedVipRule)
    (stats : VipStats type) (userMetric : UserVipMetric) : Prop :=
  let level := currentVipLevel type rules stats userMetric
  let view := calculateVipProgress type rules level stats userMetric
  (∀ rule, nextVipRule type rules level userMetric = some rule →
    view.conditions.map (·.matched) = levelRuleChecks type rule stats userMetric) ∧
  (view.progress = 100 ↔
    match view.nextLevel with
    | some next => next ≤ level
    | none => 0 < level)

/-- A threshold that counts, and the statistic that has to reach it. -/
structure VipGoal where
  metric : VipProgressMetric
  current : ℚ
  target : ℚ
deriving DecidableEq, Repr

def vipGoal (metric : VipProgressMetric) (threshold : Option ℚ) (current : ℚ) : Option VipGoal :=
  if hasThreshold threshold then threshold.map (VipGoal.mk metric current) else none

def vipGoals : (type : VipRuleType) → NormalizedVipRule → VipStats type → UserVipMetric →
    List VipGoal
  | .user, rule, (userStats : UserVipStats), .totalRecharge =>
      (vipGoal .totalRecharge rule.minRecharge userStats.totalRecharge).toList
  | .user, rule, (userStats : UserVipStats), .totalConsume =>
      (vipGoal .totalConsume rule.minConsume userStats.totalConsume).toList
  | .hosting, rule, (hostingStats : HostingVipStats), _ =>
      [vipGoal .totalHostingIncome rule.minHostingIncome hostingStats.totalHostingIncome,
        vipGoal .instanceCount (rule.minHostingInstances.map (↑))
          hostingStats.instanceCount].reduceOption

/-- A statistic that misses its threshold misses it by more than half a cent. -/
def VipGoal.MissedClearly (goal : VipGoal) : Prop :=
  goal.current < goal.target → goal.current < goal.target - 1 / 200

/-- Rounded to cents, the statistic is below 99.5 % of the threshold. -/
def VipGoal.BelowFull (goal : VipGoal) : Prop :=
  roundAmount goal.current < 199 / 200 * goal.target

/-! ## Rounding to cents -/

theorem roundAmount_mono : Monotone roundAmount := by
  intro x y h
  refine div_le_div_of_nonneg_right ?_ (by norm_num)
  exact Int.cast_le.mpr (Int.floor_le_floor (by linarith))

theorem roundAmount_max_zero (x : ℚ) : roundAmount (max x 0) = max (roundAmount x) 0 := by
  have hzero : roundAmount 0 = 0 := by decide +kernel
  rw [roundAmount_mono.map_max, hzero]

/-- An amount in cents is not reached by what is more than half a cent below. -/
theorem roundAmount_lt_iff {x target : ℚ} (htarget : roundAmount target = target) :
    roundAmount x < target ↔ x < target - 1 / 200 := by
  have hcents : target = ⌊target * 100 + 1 / 2⌋ / 100 := htarget.symm
  generalize ⌊target * 100 + 1 / 2⌋ = n at hcents
  subst hcents
  rw [roundAmount, div_lt_div_iff_of_pos_right (by norm_num), Int.cast_lt, Int.floor_lt]
  constructor
  · intro h
    linarith
  · intro h
    linarith

theorem toProgressPercent_le (current target : ℚ) : toProgressPercent current target ≤ 100 := by
  unfold toProgressPercent
  split
  · norm_num
  · exact max_le (by norm_num) (min_le_left _ _)

/-- Full from 99.5 % on. -/
theorem toProgressPercent_eq_iff {current target : ℚ} (htarget : 0 < target) :
    toProgressPercent current target = 100 ↔ 199 / 200 * target ≤ current := by
  have hfull : toProgressPercent current target = 100 ↔
      100 ≤ ⌊current / target * 100 + 1 / 2⌋ := by
    rw [toProgressPercent, if_neg htarget.not_ge]
    omega
  rw [hfull, Int.le_floor, ← le_div_iff₀ htarget]
  constructor
  · intro h
    push_cast at h
    linarith
  · intro h
    push_cast
    linarith

/-! ## A condition of the view -/

section
variable {goal : VipGoal}

/-- What the view shows for a goal. -/
def VipGoal.shown (goal : VipGoal) : VipProgressCondition :=
  buildVipProgressCondition goal.metric goal.current goal.target

theorem VipGoal.shown_target (hpos : 0 < goal.target)
    (hcents : roundAmount goal.target = goal.target) : goal.shown.target = goal.target := by
  show roundAmount (max goal.target 0) = goal.target
  rw [max_eq_left hpos.le, hcents]

theorem VipGoal.shown_matched_iff (hpos : 0 < goal.target)
    (hcents : roundAmount goal.target = goal.target) :
    goal.shown.matched = decide (goal.target ≤ goal.current) ↔ goal.MissedClearly := by
  have hshown : goal.shown.matched = decide (goal.target ≤ roundAmount goal.current) := by
    show decide (goal.shown.target ≤ roundAmount (max goal.current 0)) = _
    rw [goal.shown_target hpos hcents, roundAmount_max_zero, decide_eq_decide, le_max_iff]
    exact or_iff_left hpos.not_ge
  rw [hshown, decide_eq_decide, ← not_lt, ← not_lt, not_iff_not, roundAmount_lt_iff hcents]
  constructor
  · intro h hmissed
    exact h.mpr hmissed
  · intro h
    exact ⟨fun hshort => by linarith, h⟩

theorem VipGoal.shown_progress_lt_iff (hpos : 0 < goal.target)
    (hcents : roundAmount goal.target = goal.target) :
    goal.shown.progress < 100 ↔ goal.BelowFull := by
  have hprogress : goal.shown.progress =
      toProgressPercent (max (roundAmount goal.current) 0) goal.target := by
    show toProgressPercent (roundAmount (max goal.current 0)) goal.shown.target = _
    rw [goal.shown_target hpos hcents, roundAmount_max_zero]
  have hle := toProgressPercent_le (max (roundAmount goal.current) 0) goal.target
  show _ ↔ roundAmount goal.current < 199 / 200 * goal.target
  rw [hprogress, hle.lt_iff_ne, Ne, toProgressPercent_eq_iff hpos, not_le, max_lt_iff]
  exact and_iff_left (by linarith)

end

/-! ## The conditions of the view -/

variable {type : VipRuleType} {rule : NormalizedVipRule} {stats : VipStats type}
  {userMetric : UserVipMetric}

theorem vipGoal_shown (metric : VipProgressMetric) (threshold : Option ℚ) (current : ℚ) :
    (vipGoal metric threshold current).map VipGoal.shown =
      thresholdCondition metric threshold current := by
  unfold vipGoal thresholdCondition
  split
  · exact Option.map_map ..
  · rfl

theorem vipGoal_check (metric : VipProgressMetric) (threshold : Option ℚ) (current : ℚ) :
    (vipGoal metric threshold current).map (fun goal => decide (goal.target ≤ goal.current)) =
      thresholdCheck threshold current := by
  unfold vipGoal thresholdCheck
  split
  · exact Option.map_map ..
  · rfl

theorem hasThreshold_map_cast (threshold : Option ℕ) :
    hasThreshold (threshold.map ((↑) : ℕ → ℚ)) = hasThreshold threshold := by
  cases threshold with
  | none => rfl
  | some n => exact decide_eq_decide.mpr Nat.cast_pos

/-- A count is checked like an amount. -/
theorem thresholdCheck_map_cast (threshold : Option ℕ) (count : ℕ) :
    thresholdCheck (threshold.map ((↑) : ℕ → ℚ)) (count : ℚ) = thresholdCheck threshold count := by
  rw [thresholdCheck, thresholdCheck, hasThreshold_map_cast, Option.map_map]
  split
  · cases threshold with
    | none => rfl
    | some n => exact congrArg some (decide_eq_decide.mpr Nat.cast_le)
  · rfl

theorem getVipProgressConditions_eq (type : VipRuleType) (rule : NormalizedVipRule)
    (stats : VipStats type) (userMetric : UserVipMetric) :
    getVipProgressConditions type rule stats userMetric =
      (vipGoals type rule stats userMetric).map VipGoal.shown := by
  cases type with
  | user =>
    cases userMetric with
    | totalRecharge =>
      show [thresholdCondition _ _ _, none].reduceOption = (Option.toList (vipGoal ..)).map _
      rw [← vipGoal_shown]
      cases vipGoal _ _ _ with
      | none => rfl
      | some goal => rfl
    | totalConsume =>
      show [none, thresholdCondition _ _ _].reduceOption = (Option.toList (vipGoal ..)).map _
      rw [← vipGoal_shown]
      cases vipGoal _ _ _ with
      | none => rfl
      | some goal => rfl
  | hosting =>
    show [thresholdCondition _ _ _, thresholdCondition _ _ _].reduceOption =
      (List.reduceOption [vipGoal .., vipGoal ..]).map _
    rw [← vipGoal_shown, ← vipGoal_shown, ← List.reduceOption_map]
    rfl

theorem levelRuleChecks_eq (type : VipRuleType) (rule : NormalizedVipRule)
    (stats : VipStats type) (userMetric : UserVipMetric) :
    levelRuleChecks type rule stats userMetric =
      (vipGoals type rule stats userMetric).map
        fun goal => decide (goal.target ≤ goal.current) := by
  cases type with
  | user =>
    cases userMetric with
    | totalRecharge =>
      show [thresholdCheck _ _, none].reduceOption = (Option.toList (vipGoal ..)).map _
      rw [← vipGoal_check .totalRecharge]
      cases vipGoal _ _ _ with
      | none => rfl
      | some goal => rfl
    | totalConsume =>
      show [none, thresholdCheck _ _].reduceOption = (Option.toList (vipGoal ..)).map _
      rw [← vipGoal_check .totalConsume]
      cases vipGoal _ _ _ with
      | none => rfl
      | some goal => rfl
  | hosting =>
    show [thresholdCheck _ _, thresholdCheck _ _].reduceOption =
      (List.reduceOption [vipGoal .., vipGoal ..]).map _
    rw [← thresholdCheck_map_cast, ← vipGoal_check .totalHostingIncome,
      ← vipGoal_check .instanceCount, ← List.reduceOption_map]
    rfl

/-- A goal is positive and in cents. -/
theorem mem_vipGoal {metric : VipProgressMetric} {threshold : Option ℚ} {current : ℚ}
    {goal : VipGoal} (hcents : ∀ value, threshold = some value → roundAmount value = value)
    (h : goal ∈ vipGoal metric threshold current) :
    0 < goal.target ∧ roundAmount goal.target = goal.target := by
  unfold vipGoal at h
  split at h
  · rename_i hpos
    obtain ⟨target, htarget, rfl⟩ := Option.map_eq_some_iff.mp h
    rw [htarget] at hpos
    exact ⟨of_decide_eq_true hpos, hcents target htarget⟩
  · cases h

theorem roundAmount_natCast (n : ℕ) : roundAmount n = n := by
  have hfloor : ⌊(n : ℚ) * 100 + 1 / 2⌋ = (n : ℤ) * 100 := by
    rw [Int.floor_eq_iff]
    push_cast
    constructor
    · linarith
    · linarith
  rw [roundAmount, hfloor]
  push_cast
  exact mul_div_cancel_right₀ _ (by norm_num)

theorem mem_vipGoals {goal : VipGoal} (h : goal ∈ vipGoals type rule stats userMetric) :
    0 < goal.target ∧ roundAmount goal.target = goal.target := by
  cases type with
  | user =>
    cases userMetric with
    | totalRecharge =>
      exact mem_vipGoal (fun v hv => rule.in_cents v (.inl hv)) (Option.mem_toList.mp h)
    | totalConsume =>
      exact mem_vipGoal (fun v hv => rule.in_cents v (.inr (.inl hv))) (Option.mem_toList.mp h)
  | hosting =>
    have hmem : some goal ∈ [vipGoal .., vipGoal ..] := List.reduceOption_mem_iff.mp h
    rcases List.mem_pair.mp hmem with hgoal | hgoal
    · exact mem_vipGoal (fun v hv => rule.in_cents v (.inr (.inr hv))) hgoal.symm
    · refine mem_vipGoal (fun v hv => ?_) hgoal.symm
      obtain ⟨n, -, rfl⟩ := Option.map_eq_some_iff.mp hv
      exact roundAmount_natCast n

/-! ## The next rule -/

section
variable {rules : List NormalizedVipRule} {level : ℕ}

theorem nextVipRule_spec (h : nextVipRule type rules level userMetric = some rule) :
    rule ∈ rules ∧ isNextVipRule type level userMetric rule = true := by
  have hmem : rule ∈ (rules.filter (isNextVipRule type level userMetric)).insertionSort
      fun a b => a.level ≤ b.level := List.mem_of_head? h
  exact List.mem_filter.mp ((List.mem_insertionSort _).mp hmem)

theorem lt_level_of_isNext (h : isNextVipRule type level userMetric rule = true) :
    level < rule.level := by
  unfold isNextVipRule at h
  split at h
  · cases h
  · rename_i hnot
    exact not_le.mp fun hle => hnot (.inr (.inr hle))

theorem exists_vipGoal (metric : VipProgressMetric) {threshold : Option ℚ} (current : ℚ)
    (h : hasThreshold threshold = true) :
    ∃ goal, vipGoal metric threshold current = some goal := by
  cases threshold with
  | none => cases h
  | some target => exact ⟨_, if_pos h⟩

/-- The next rule has a goal. -/
theorem vipGoals_ne_nil (h : isNextVipRule type level userMetric rule = true)
    (stats : VipStats type) : vipGoals type rule stats userMetric ≠ [] := by
  unfold isNextVipRule at h
  split at h
  · cases h
  · cases type with
    | user =>
      cases userMetric with
      | totalRecharge =>
        obtain ⟨goal, hgoal⟩ := exists_vipGoal .totalRecharge (UserVipStats.totalRecharge stats) h
        show Option.toList (vipGoal ..) ≠ []
        rw [hgoal]
        exact List.cons_ne_nil _ _
      | totalConsume =>
        obtain ⟨goal, hgoal⟩ := exists_vipGoal .totalConsume (UserVipStats.totalConsume stats) h
        show Option.toList (vipGoal ..) ≠ []
        rw [hgoal]
        exact List.cons_ne_nil _ _
    | hosting =>
      intro hnil
      refine getRuleChecks_ne_nil h stats ?_
      show levelRuleChecks .hosting rule stats userMetric = []
      rw [levelRuleChecks_eq, hnil]
      rfl

end

/-! ## The percentage of the view -/

section
variable {values : List ℤ} {bound : ℤ}

theorem max?_lt_iff (h : values ≠ []) :
    values.max?.getD 0 < bound ↔ ∀ value ∈ values, value < bound := by
  obtain ⟨top, htop⟩ := Option.isSome_iff_exists.mp (List.isSome_max?_of_ne_nil h)
  obtain ⟨hmem, hle⟩ := List.max?_eq_some_iff.mp htop
  rw [htop]
  constructor
  · intro hlt value hvalue
    exact (hle value hvalue).trans_lt hlt
  · intro hall
    exact hall top hmem

theorem min?_lt_iff (h : values ≠ []) :
    values.min?.getD 0 < bound ↔ ∃ value ∈ values, value < bound := by
  obtain ⟨least, hleast⟩ := Option.isSome_iff_exists.mp (List.isSome_min?_of_ne_nil h)
  obtain ⟨hmem, hle⟩ := List.min?_eq_some_iff.mp hleast
  rw [hleast]
  constructor
  · intro hlt
    exact ⟨least, hmem, hlt⟩
  · rintro ⟨value, hvalue, hlt⟩
    exact (hle value hvalue).trans_lt hlt

end

variable {rules : List NormalizedVipRule} {level : ℕ}

/-- The view when there is a next rule, in terms of its goals. -/
theorem calculateVipProgress_of_next (stats : VipStats type)
    (h : nextVipRule type rules level userMetric = some rule) :
    let view := calculateVipProgress type rules level stats userMetric
    view.nextLevel = some rule.level ∧
    view.conditions = (vipGoals type rule stats userMetric).map VipGoal.shown ∧
    view.progress ≤ 100 ∧
    (view.progress < 100 ↔ match rule.conditionMode with
      | .any => ∀ goal ∈ vipGoals type rule stats userMetric, goal.BelowFull
      | .all => ∃ goal ∈ vipGoals type rule stats userMetric, goal.BelowFull) := by
  have hne := vipGoals_ne_nil (nextVipRule_spec h).2 stats
  have hgoals : ∀ goal ∈ vipGoals type rule stats userMetric,
      goal.shown.progress < 100 ↔ goal.BelowFull := fun goal hgoal =>
    goal.shown_progress_lt_iff (mem_vipGoals hgoal).1 (mem_vipGoals hgoal).2
  set goals := vipGoals type rule stats userMetric with hdef
  set values := (goals.map VipGoal.shown).map (·.progress) with hvalues
  have hvaluesne : values ≠ [] := by simpa [hvalues] using hne
  have hle : ∀ value ∈ values, value ≤ 100 := by
    intro value hvalue
    obtain ⟨shown, hshown, rfl⟩ := List.mem_map.mp hvalue
    obtain ⟨goal, -, rfl⟩ := List.mem_map.mp hshown
    exact toProgressPercent_le _ _
  have hview : (calculateVipProgress type rules level stats userMetric).progress =
      match rule.conditionMode with
      | .all => values.min?.getD 0
      | .any => values.max?.getD 0 := by
    unfold calculateVipProgress
    rw [h]
    dsimp only
    rw [getVipProgressConditions_eq, ← hdef, ← hvalues,
      if_neg fun hlength => hvaluesne (List.length_eq_zero_iff.mp hlength)]
  refine ⟨?_, ?_, ?_, ?_⟩
  · unfold calculateVipProgress
    rw [h]
  · unfold calculateVipProgress
    rw [h]
    exact getVipProgressConditions_eq type rule stats userMetric
  · rw [hview, ← Int.lt_add_one_iff]
    cases rule.conditionMode with
    | any => exact (max?_lt_iff hvaluesne).mpr fun v hv => Int.lt_add_one_iff.mpr (hle v hv)
    | all =>
      obtain ⟨value, hvalue⟩ := List.exists_mem_of_ne_nil _ hvaluesne
      exact (min?_lt_iff hvaluesne).mpr ⟨value, hvalue, Int.lt_add_one_iff.mpr (hle value hvalue)⟩
  · rw [hview]
    cases rule.conditionMode with
    | any =>
      dsimp only
      rw [max?_lt_iff hvaluesne, hvalues, List.map_map, List.forall_mem_map]
      exact forall₂_congr hgoals
    | all =>
      dsimp only
      rw [min?_lt_iff hvaluesne, hvalues, List.map_map]
      constructor
      · rintro ⟨value, hvalue, hlt⟩
        obtain ⟨goal, hgoal, rfl⟩ := List.mem_map.mp hvalue
        exact ⟨goal, hgoal, (hgoals goal hgoal).mp hlt⟩
      · rintro ⟨goal, hgoal, hbelow⟩
        exact ⟨_, List.mem_map.mpr ⟨goal, hgoal, rfl⟩, (hgoals goal hgoal).mpr hbelow⟩

/-- No condition on what the user pays. -/
theorem own_track_none : (none : Option ℚ) = none ∧ (none : Option ℚ) = none := ⟨rfl, rfl⟩

/-- A first hosting level for an income of 100. -/
def incomeRule : NormalizedVipRule where
  type := .hosting
  level := 1
  enabled := true
  conditionMode := .any
  minRecharge := none
  minConsume := none
  minHostingIncome := some 100
  minHostingInstances := none
  level_mem := by decide
  own_track := own_track_none
  in_cents := by
    rintro value (h | h | h)
    · cases h
    · cases h
    · cases h
      decide +kernel

/-- A view that is full for a level that is not held. -/
theorem not_agrees_of_full {next : ℕ}
    (hfull : (calculateVipProgress type rules level stats userMetric).progress = 100)
    (hnext : (calculateVipProgress type rules level stats userMetric).nextLevel = some next)
    (hlevel : currentVipLevel type rules stats userMetric = level) (hheld : level < next) :
    ¬VipProgressAgrees type rules stats userMetric := by
  subst hlevel
  rintro ⟨-, h⟩
  rw [hnext] at h
  exact hheld.not_ge (h.mp hfull)

end Incudal
