/-
# `VipLevels` — the level that a user's statistics reach

An administrator saves rules for two tracks, one level each.  A rule asks for
thresholds, of which one or all have to be reached, and the level of a user is
the highest level of an enabled rule that is matched.  For the hosting track
this is computed twice: by `calculateVipLevel`, and by the database, where the
list of owners is ordered by a `CASE` expression that `buildHostingVipSql`
writes from the same rules.

Numbers are exact here.  `level_mem`, `own_track` and `in_cents` of a rule are
what `sanitizeVipRuleInput` leaves of an input, and the only rules there are
come from it.
-/
import Incudal.Lib.Ranked
import Incudal.Lib.SqlCase
import Incudal.VipBenefits
import Mathlib.Data.List.ReduceOption

namespace Incudal

/-! ## Rules -/

inductive VipRuleType
  | user | hosting
deriving DecidableEq, Repr

inductive VipConditionMode
  | any | all
deriving DecidableEq, Repr

inductive UserVipMetric
  | totalRecharge | totalConsume
deriving DecidableEq, Repr

def maxMoneyThreshold : ℚ := 99999999.99
def maxInstanceThreshold : ℕ := 1000000

/-- `Math.round(value * 100) / 100`. -/
def roundAmount (value : ℚ) : ℚ := ⌊value * 100 + 1 / 2⌋ / 100

/-- The columns of `vip_level_rules` that a level depends on. -/
structure NormalizedVipRule where
  type : VipRuleType
  level : ℕ
  enabled : Bool
  conditionMode : VipConditionMode
  minRecharge : Option ℚ
  minConsume : Option ℚ
  minHostingIncome : Option ℚ
  minHostingInstances : Option ℕ
  level_mem : 1 ≤ level ∧ level ≤ maxVipLevel
  own_track : match type with
    | .user => minHostingIncome = none ∧ minHostingInstances = none
    | .hosting => minRecharge = none ∧ minConsume = none
  in_cents : ∀ value, minRecharge = some value ∨ minConsume = some value ∨
    minHostingIncome = some value → roundAmount value = value
deriving DecidableEq

/-! ## What is saved -/

/-- A number in a request: left empty, not a finite number, or a number. -/
inductive InputNumber
  | blank | notFinite | finite (value : ℚ)
deriving DecidableEq, Repr

structure VipRuleInput where
  level : InputNumber
  enabled : Option Bool := none
  conditionMode : Option VipConditionMode := none
  minRecharge : InputNumber := .blank
  minConsume : InputNumber := .blank
  minHostingIncome : InputNumber := .blank
  minHostingInstances : InputNumber := .blank
deriving DecidableEq, Repr

def nullableMoney (value : InputNumber) : Except String (Option ℚ) :=
  let error := .error "Money threshold must be between 0 and 99999999.99"
  match value with
  | .blank => .ok none
  | .notFinite => error
  | .finite parsed =>
      if parsed < 0 ∨ maxMoneyThreshold < parsed then error
      else .ok (some (roundAmount parsed))

def nullableCount (value : InputNumber) : Except String (Option ℕ) :=
  let error := .error s!"Instance threshold must be between 0 and {maxInstanceThreshold}"
  match value with
  | .blank => .ok none
  | .notFinite => error
  | .finite parsed =>
      if parsed < 0 ∨ maxInstanceThreshold < parsed then error
      else if parsed.den ≠ 1 then .error "Instance threshold must be an integer"
      else .ok (some parsed.num.toNat)

section
variable {α : Type*} [Zero α] [LinearOrder α]

def hasThreshold : Option α → Bool
  | none => false
  | some value => decide (0 < value)

end

def hasActiveCondition (type : VipRuleType) (rule : NormalizedVipRule) : Bool :=
  match type with
  | .user => hasThreshold rule.minRecharge || hasThreshold rule.minConsume
  | .hosting => hasThreshold rule.minHostingIncome || hasThreshold rule.minHostingInstances

theorem roundAmount_idem (value : ℚ) : roundAmount (roundAmount value) = roundAmount value := by
  have hcancel : roundAmount value * 100 = ⌊value * 100 + 1 / 2⌋ :=
    div_mul_cancel₀ _ (by norm_num)
  have hfloor : ⌊(⌊value * 100 + 1 / 2⌋ : ℚ) + 1 / 2⌋ = ⌊value * 100 + 1 / 2⌋ := by
    rw [Int.floor_intCast_add]
    norm_num
  show (⌊roundAmount value * 100 + 1 / 2⌋ : ℚ) / 100 = _
  rw [hcancel, hfloor]
  rfl

theorem nullableMoney_in_cents {value : InputNumber} {threshold : Option ℚ} {v : ℚ}
    (h : nullableMoney value = .ok threshold) (hv : threshold = some v) : roundAmount v = v := by
  cases value with
  | blank =>
    cases h
    cases hv
  | notFinite => cases h
  | finite parsed =>
    simp only [nullableMoney] at h
    split at h
    · cases h
    · cases h
      cases hv
      exact roundAmount_idem parsed

theorem level_mem_of_integer {level : ℚ} (h : level.den = 1 ∧ 1 ≤ level ∧ level ≤ maxVipLevel) :
    1 ≤ level.num.toNat ∧ level.num.toNat ≤ maxVipLevel := by
  obtain ⟨hden, hlow, hhigh⟩ := h
  have hnum : (level.num : ℚ) = level := Rat.den_eq_one_iff level |>.mp hden
  rw [← hnum] at hlow hhigh
  have hlow' : 1 ≤ level.num := by exact_mod_cast hlow
  have hhigh' : level.num ≤ maxVipLevel := by exact_mod_cast hhigh
  omega

def vipLevelOf (level : InputNumber) :
    Except String {level : ℕ // 1 ≤ level ∧ level ≤ maxVipLevel} :=
  let error := .error s!"VIP level must be between 1 and {maxVipLevel}"
  match level with
  | .finite level =>
      if h : level.den = 1 ∧ 1 ≤ level ∧ level ≤ maxVipLevel then
        .ok ⟨level.num.toNat, level_mem_of_integer h⟩
      else error
  | _ => error

/-- A rule without a condition is refused, unless it is switched off. -/
def requireCondition (rule : NormalizedVipRule) : Except String NormalizedVipRule :=
  if rule.enabled && !hasActiveCondition rule.type rule then
    .error s!"VIP{rule.level} requires at least one condition"
  else .ok rule

/-- A user rule has the condition of the metric in use, and `any`; a hosting rule has its two
conditions. -/
def sanitizeVipRuleInput (type : VipRuleType) (input : VipRuleInput)
    (userMetric : UserVipMetric := .totalRecharge) : Except String NormalizedVipRule :=
  match vipLevelOf input.level with
  | .error e => .error e
  | .ok ⟨level, level_mem⟩ =>
      let enabled := input.enabled != some false
      match type with
      | .user =>
          match userMetric with
          | .totalRecharge =>
              match h : nullableMoney input.minRecharge with
              | .error e => .error e
              | .ok minRecharge => requireCondition
                  { type := .user, level, enabled, conditionMode := .any, minRecharge,
                    minConsume := none, minHostingIncome := none, minHostingInstances := none,
                    level_mem, own_track := ⟨rfl, rfl⟩,
                    in_cents := by
                      rintro v (hv | hv | hv)
                      · exact nullableMoney_in_cents h hv
                      all_goals cases hv }
          | .totalConsume =>
              match h : nullableMoney input.minConsume with
              | .error e => .error e
              | .ok minConsume => requireCondition
                  { type := .user, level, enabled, conditionMode := .any, minRecharge := none,
                    minConsume, minHostingIncome := none, minHostingInstances := none,
                    level_mem, own_track := ⟨rfl, rfl⟩,
                    in_cents := by
                      rintro v (hv | hv | hv)
                      · cases hv
                      · exact nullableMoney_in_cents h hv
                      · cases hv }
      | .hosting =>
          match h : nullableMoney input.minHostingIncome with
          | .error e => .error e
          | .ok minHostingIncome =>
              match nullableCount input.minHostingInstances with
              | .error e => .error e
              | .ok minHostingInstances => requireCondition
                  { type := .hosting, level, enabled,
                    conditionMode := input.conditionMode.getD .any, minRecharge := none,
                    minConsume := none, minHostingIncome, minHostingInstances,
                    level_mem, own_track := ⟨rfl, rfl⟩,
                    in_cents := by
                      rintro v (hv | hv | hv)
                      · cases hv
                      · cases hv
                      · exact nullableMoney_in_cents h hv }

theorem requireCondition_ok {type : VipRuleType} {rule saved : NormalizedVipRule}
    (h : requireCondition rule = .ok saved) (htype : rule.type = type) :
    saved.type = type ∧ (saved.enabled = true → hasActiveCondition type saved = true) := by
  subst htype
  simp only [requireCondition] at h
  split at h
  · cases h
  · rename_i hcondition
    cases h
    exact ⟨rfl, fun henabled => by simpa [henabled] using hcondition⟩

/-- A saved rule is of the track and has a condition, unless it is switched off. -/
theorem sanitizeVipRuleInput_ok {type : VipRuleType} {input : VipRuleInput}
    {userMetric : UserVipMetric} {saved : NormalizedVipRule}
    (h : sanitizeVipRuleInput type input userMetric = .ok saved) :
    saved.type = type ∧ (saved.enabled = true → hasActiveCondition type saved = true) := by
  unfold sanitizeVipRuleInput at h
  split at h
  · cases h
  · dsimp only at h
    repeat' split at h
    all_goals first
      | cases h
      | exact requireCondition_ok h rfl

/-! ## Statistics -/

structure UserVipStats where
  totalRecharge : ℚ
  totalConsume : ℚ
deriving DecidableEq, Repr

structure HostingVipStats where
  totalHostingIncome : ℚ
  instanceCount : ℕ
deriving DecidableEq, Repr

instance : Preorder UserVipStats := Preorder.lift fun s => (s.totalRecharge, s.totalConsume)

instance : Preorder HostingVipStats :=
  Preorder.lift fun s => (s.totalHostingIncome, s.instanceCount)

/-- The statistics that go with a track. -/
def VipStats : VipRuleType → Type
  | .user => UserVipStats
  | .hosting => HostingVipStats

instance : (type : VipRuleType) → Preorder (VipStats type)
  | .user => inferInstanceAs (Preorder UserVipStats)
  | .hosting => inferInstanceAs (Preorder HostingVipStats)

/-! ## Matching -/

section
variable {α : Type*} [Zero α] [LinearOrder α]

/-- `hasThreshold(threshold) ? value >= threshold : null`. -/
def thresholdCheck (threshold : Option α) (value : α) : Option Bool :=
  if hasThreshold threshold then threshold.map fun target => decide (target ≤ value) else none

end

def getRuleChecks : (type : VipRuleType) → NormalizedVipRule → VipStats type → List Bool
  | .user, rule, (userStats : UserVipStats) =>
      [thresholdCheck rule.minRecharge userStats.totalRecharge,
        thresholdCheck rule.minConsume userStats.totalConsume].reduceOption
  | .hosting, rule, (hostingStats : HostingVipStats) =>
      [thresholdCheck rule.minHostingIncome hostingStats.totalHostingIncome,
        thresholdCheck rule.minHostingInstances hostingStats.instanceCount].reduceOption

def getUserRuleChecks (rule : NormalizedVipRule) (stats : UserVipStats)
    (userMetric : UserVipMetric) : List Bool :=
  [if userMetric = .totalRecharge then thresholdCheck rule.minRecharge stats.totalRecharge
    else none,
    if userMetric = .totalConsume then thresholdCheck rule.minConsume stats.totalConsume
    else none].reduceOption

def hasUserMetricCondition (rule : NormalizedVipRule) (userMetric : UserVipMetric) : Bool :=
  match userMetric with
  | .totalRecharge => hasThreshold rule.minRecharge
  | .totalConsume => hasThreshold rule.minConsume

def isVipRuleMatched (type : VipRuleType) (rule : NormalizedVipRule) (stats : VipStats type) :
    Bool :=
  if !rule.enabled || !hasActiveCondition type rule then false
  else
    let checks := getRuleChecks type rule stats
    if checks.length = 0 then false
    else match rule.conditionMode with
      | .all => checks.all id
      | .any => checks.any id

def isUserVipRuleMatched (rule : NormalizedVipRule) (stats : UserVipStats)
    (userMetric : UserVipMetric) : Bool :=
  if !rule.enabled || rule.type != .user || !hasUserMetricCondition rule userMetric then false
  else
    let checks := getUserRuleChecks rule stats userMetric
    decide (checks.length > 0) && checks.any id

/-- The level of the first rule, zero where there is none. -/
def firstLevel (rules : List NormalizedVipRule) : ℕ := (rules.head?.map (·.level)).getD 0

def calculateVipLevel (type : VipRuleType) (rules : List NormalizedVipRule)
    (stats : VipStats type) : ℕ :=
  let matchedRules := Ranked.downwards NormalizedVipRule.level
    (rules.filter fun rule => rule.type == type && isVipRuleMatched type rule stats)
  firstLevel matchedRules

def calculateUserVipLevelByMetric (rules : List NormalizedVipRule) (stats : UserVipStats)
    (userMetric : UserVipMetric) : ℕ :=
  let matchedRules := Ranked.downwards NormalizedVipRule.level
    (rules.filter fun rule => isUserVipRuleMatched rule stats userMetric)
  firstLevel matchedRules

/-! ## The expression for the database -/

/-- The columns of `qualified_owners` that the expression reads. -/
structure HostingOwnerRow where
  id : ℤ
  totalHostingIncome : Option ℚ
  instanceCount : Option ℕ
deriving DecidableEq, Repr

/-- The statistics of a row; `toNumber` makes a null zero. -/
def HostingOwnerRow.stats (row : HostingOwnerRow) : VipStats .hosting :=
  HostingVipStats.mk (row.totalHostingIncome.getD 0) (row.instanceCount.getD 0)

section
variable {α : Type*} [Zero α] [LinearOrder α]

/-- The condition that is pushed for a threshold. -/
def thresholdSql (column : HostingOwnerRow → Option α) (threshold : Option α) :
    Option (Sql.Condition HostingOwnerRow) :=
  if hasThreshold threshold then threshold.map (Sql.Condition.ge column) else none

end

def hostingConditions (rule : NormalizedVipRule) : List (Sql.Condition HostingOwnerRow) :=
  [thresholdSql HostingOwnerRow.totalHostingIncome rule.minHostingIncome,
    thresholdSql HostingOwnerRow.instanceCount rule.minHostingInstances].reduceOption

/-- `WHEN … THEN level`; a join of no conditions throws. -/
def hostingCase (rule : NormalizedVipRule) : Option (Sql.Condition HostingOwnerRow × ℤ) :=
  let conditionSql := match rule.conditionMode with
    | .all => Sql.Condition.joinWith .and (hostingConditions rule)
    | .any => Sql.Condition.joinWith .or (hostingConditions rule)
  conditionSql.map fun condition => (condition, (rule.level : ℤ))

def buildHostingVipSql (rules : List NormalizedVipRule) : Option (Sql.Expr HostingOwnerRow) :=
  let orderedRules := Ranked.downwards NormalizedVipRule.level
    (rules.filter fun rule => rule.enabled && hasActiveCondition .hosting rule)
  if orderedRules.length = 0 then some (.mul (.column fun row => some row.id) (.literal 0))
  else (orderedRules.mapM hostingCase).map fun cases => .caseWhen cases 0

/-! ## Thresholds -/

section
variable {α : Type*} [Zero α] [LinearOrder α] {threshold : Option α} {value value' : α}

/-- There is a check where there is a threshold. -/
theorem exists_thresholdCheck (h : hasThreshold threshold = true) (value : α) :
    ∃ b, thresholdCheck threshold value = some b := by
  cases threshold with
  | none => cases h
  | some target => exact ⟨_, if_pos h⟩

/-- A larger statistic passes what a smaller one does. -/
theorem thresholdCheck_mono (threshold : Option α) (h : value ≤ value') :
    Option.Rel (· ≤ ·) (thresholdCheck threshold value) (thresholdCheck threshold value') := by
  cases threshold with
  | none => exact .none
  | some target =>
    by_cases hpos : hasThreshold (some target) = true
    · rw [thresholdCheck, thresholdCheck, if_pos hpos, if_pos hpos]
      refine .some ?_
      rw [Bool.le_iff_imp, decide_eq_true_eq, decide_eq_true_eq]
      exact fun hle => hle.trans h
    · rw [thresholdCheck, thresholdCheck, if_neg hpos, if_neg hpos]
      exact .none

/-- The database decides about a threshold as the check does: a null does not reach a
threshold, and neither does the zero that stands for it. -/
theorem thresholdSql_holds (column : HostingOwnerRow → Option α) (threshold : Option α)
    (row : HostingOwnerRow) :
    (thresholdSql column threshold).map (·.holds row) =
      thresholdCheck threshold ((column row).getD 0) := by
  cases threshold with
  | none => rfl
  | some target =>
    by_cases hpos : hasThreshold (some target) = true
    · rw [thresholdSql, thresholdCheck, if_pos hpos, if_pos hpos]
      have hlt : 0 < target := of_decide_eq_true hpos
      refine congrArg some ((Sql.Condition.holds_ge).trans ?_)
      cases column row with
      | none => exact (decide_eq_false hlt.not_ge).symm
      | some x => rfl
    · rw [thresholdSql, thresholdCheck, if_neg hpos, if_neg hpos]
      rfl

end

/-! ## Checks of a rule -/

theorem forall₂_reduceOption {α β : Type*} {r : α → β → Prop} {xs : List (Option α)}
    {ys : List (Option β)} (h : List.Forall₂ (Option.Rel r) xs ys) :
    List.Forall₂ r xs.reduceOption ys.reduceOption := by
  induction h with
  | nil => exact .nil
  | cons hxy _ ih =>
    cases hxy with
    | none => exact ih
    | some hr => exact .cons hr ih

variable {type : VipRuleType} {rule : NormalizedVipRule}

theorem getRuleChecks_mono (rule : NormalizedVipRule) {stats stats' : VipStats type}
    (h : stats ≤ stats') :
    List.Forall₂ (· ≤ ·) (getRuleChecks type rule stats) (getRuleChecks type rule stats') := by
  cases type with
  | user =>
    exact forall₂_reduceOption (.cons (thresholdCheck_mono _ h.1)
      (.cons (thresholdCheck_mono _ h.2) .nil))
  | hosting =>
    exact forall₂_reduceOption (.cons (thresholdCheck_mono _ h.1)
      (.cons (thresholdCheck_mono _ h.2) .nil))

theorem getUserRuleChecks_mono (rule : NormalizedVipRule) {stats stats' : UserVipStats}
    (h : stats ≤ stats') (userMetric : UserVipMetric) :
    List.Forall₂ (· ≤ ·) (getUserRuleChecks rule stats userMetric)
      (getUserRuleChecks rule stats' userMetric) := by
  cases userMetric with
  | totalRecharge =>
    exact forall₂_reduceOption (.cons (thresholdCheck_mono _ h.1) (.cons .none .nil))
  | totalConsume =>
    exact forall₂_reduceOption (.cons .none (.cons (thresholdCheck_mono _ h.2) .nil))

theorem any_mono {bs cs : List Bool} (h : List.Forall₂ (· ≤ ·) bs cs)
    (hany : bs.any id = true) : cs.any id = true := by
  induction h with
  | nil => exact hany
  | cons hbc _ ih =>
    rw [List.any_cons, Bool.or_eq_true] at hany ⊢
    exact hany.imp (Bool.le_iff_imp.mp hbc) ih

theorem all_mono {bs cs : List Bool} (h : List.Forall₂ (· ≤ ·) bs cs)
    (hall : bs.all id = true) : cs.all id = true := by
  induction h with
  | nil => exact hall
  | cons hbc _ ih =>
    rw [List.all_cons, Bool.and_eq_true] at hall ⊢
    exact ⟨Bool.le_iff_imp.mp hbc hall.1, ih hall.2⟩

/-- Only a rule without active condition has no check. -/
theorem getRuleChecks_ne_nil (h : hasActiveCondition type rule = true) (stats : VipStats type) :
    getRuleChecks type rule stats ≠ [] := by
  cases type with
  | user =>
    rcases Bool.or_eq_true _ _ ▸ h with h | h
    · obtain ⟨b, hb⟩ := exists_thresholdCheck h (UserVipStats.totalRecharge stats)
      simp [getRuleChecks, hb]
    · obtain ⟨b, hb⟩ := exists_thresholdCheck h (UserVipStats.totalConsume stats)
      simp [getRuleChecks, hb, List.reduceOption]
  | hosting =>
    rcases Bool.or_eq_true _ _ ▸ h with h | h
    · obtain ⟨b, hb⟩ := exists_thresholdCheck h (HostingVipStats.totalHostingIncome stats)
      simp [getRuleChecks, hb]
    · obtain ⟨b, hb⟩ := exists_thresholdCheck h (HostingVipStats.instanceCount stats)
      simp [getRuleChecks, hb, List.reduceOption]

/-! ## Matching grows with the statistics -/

theorem isVipRuleMatched_mono {stats stats' : VipStats type} (h : stats ≤ stats')
    (hmatched : isVipRuleMatched type rule stats = true) :
    isVipRuleMatched type rule stats' = true := by
  have hchecks := getRuleChecks_mono rule h
  simp only [isVipRuleMatched] at hmatched ⊢
  split at hmatched
  · cases hmatched
  · rename_i hactive
    rw [if_neg hactive, ← hchecks.length_eq]
    split at hmatched
    · cases hmatched
    · rename_i hnonempty
      rw [if_neg hnonempty]
      cases hmode : rule.conditionMode with
      | any =>
        rw [hmode] at hmatched
        exact any_mono hchecks hmatched
      | all =>
        rw [hmode] at hmatched
        exact all_mono hchecks hmatched

theorem isUserVipRuleMatched_mono {stats stats' : UserVipStats} (h : stats ≤ stats')
    (userMetric : UserVipMetric) (hmatched : isUserVipRuleMatched rule stats userMetric = true) :
    isUserVipRuleMatched rule stats' userMetric = true := by
  have hchecks := getUserRuleChecks_mono rule h userMetric
  simp only [isUserVipRuleMatched] at hmatched ⊢
  split at hmatched
  · cases hmatched
  · rename_i hactive
    rw [if_neg hactive, ← hchecks.length_eq]
    rw [Bool.and_eq_true] at hmatched ⊢
    exact hmatched.imp_right (any_mono hchecks)

theorem calculateVipLevel_eq_best (type : VipRuleType) (rules : List NormalizedVipRule)
    (stats : VipStats type) :
    calculateVipLevel type rules stats = Ranked.best NormalizedVipRule.level
      (fun rule => rule.type == type && isVipRuleMatched type rule stats) rules :=
  Ranked.head?_downwards_filter _ _ _

theorem calculateUserVipLevelByMetric_eq_best (rules : List NormalizedVipRule)
    (stats : UserVipStats) (userMetric : UserVipMetric) :
    calculateUserVipLevelByMetric rules stats userMetric = Ranked.best NormalizedVipRule.level
      (fun rule => isUserVipRuleMatched rule stats userMetric) rules :=
  Ranked.head?_downwards_filter _ _ _

theorem calculateVipLevel_mono (type : VipRuleType) (rules : List NormalizedVipRule) :
    Monotone (calculateVipLevel type rules) := by
  intro stats stats' h
  rw [calculateVipLevel_eq_best, calculateVipLevel_eq_best]
  refine Ranked.best_mono fun rule _ hmatched => ?_
  rw [Bool.and_eq_true] at hmatched ⊢
  exact hmatched.imp_right (isVipRuleMatched_mono h)

theorem calculateUserVipLevelByMetric_mono (rules : List NormalizedVipRule)
    (userMetric : UserVipMetric) :
    Monotone fun stats => calculateUserVipLevelByMetric rules stats userMetric := by
  intro stats stats' h
  simp only [calculateUserVipLevelByMetric_eq_best]
  exact Ranked.best_mono fun rule _ => isUserVipRuleMatched_mono h userMetric

/-! ## The database computes the same level -/

/-- The pushed conditions hold where the checks pass. -/
theorem hostingConditions_holds (rule : NormalizedVipRule) (row : HostingOwnerRow) :
    (hostingConditions rule).map (·.holds row) = getRuleChecks .hosting rule row.stats := by
  rw [hostingConditions, ← List.reduceOption_map, List.map_cons, List.map_singleton,
    thresholdSql_holds, thresholdSql_holds]
  rfl

theorem hasActiveCondition_of_matched {stats : VipStats type}
    (h : isVipRuleMatched type rule stats = true) :
    rule.enabled = true ∧ hasActiveCondition type rule = true := by
  simp only [isVipRuleMatched] at h
  split at h
  · cases h
  · rename_i hactive
    rwa [Bool.or_eq_true, not_or, Bool.not_eq_true', Bool.not_eq_true', Bool.not_eq_false,
      Bool.not_eq_false] at hactive

/-- The branch of a rule is taken in the rows of the users who match the rule. -/
theorem hostingCase_spec (henabled : rule.enabled = true)
    (hactive : hasActiveCondition .hosting rule = true) :
    ∃ p, hostingCase rule = some (p, (rule.level : ℤ)) ∧
      ∀ row, p.holds row = isVipRuleMatched .hosting rule row.stats := by
  have hne : hostingConditions rule ≠ [] := by
    intro hnil
    have hchecks := hostingConditions_holds rule ⟨0, none, none⟩
    rw [hnil] at hchecks
    exact getRuleChecks_ne_nil hactive _ hchecks.symm
  have hmatched : ∀ row : HostingOwnerRow, isVipRuleMatched .hosting rule row.stats =
      match rule.conditionMode with
      | .all => (hostingConditions rule).all (·.holds row)
      | .any => (hostingConditions rule).any (·.holds row) := by
    intro row
    have hlength : (getRuleChecks .hosting rule row.stats).length ≠ 0 := fun h =>
      getRuleChecks_ne_nil hactive _ (List.length_eq_zero_iff.mp h)
    rw [isVipRuleMatched, henabled, hactive, if_neg (by decide)]
    dsimp only
    rw [if_neg hlength, ← hostingConditions_holds]
    cases rule.conditionMode with
    | all => exact List.all_map
    | any => exact List.any_map
  unfold hostingCase
  cases hmode : rule.conditionMode with
  | all =>
    obtain ⟨p, hp⟩ := Sql.Condition.exists_joinWith .and hne
    refine ⟨p, by rw [hp]; rfl, fun row => ?_⟩
    rw [hmatched, hmode]
    exact Sql.Condition.holds_joinAnd hp
  | any =>
    obtain ⟨p, hp⟩ := Sql.Condition.exists_joinWith .or hne
    refine ⟨p, by rw [hp]; rfl, fun row => ?_⟩
    rw [hmatched, hmode]
    exact Sql.Condition.holds_joinOr hp

/-- Only a hosting rule has a hosting condition. -/
theorem type_of_hasActiveCondition (h : hasActiveCondition .hosting rule = true) :
    rule.type = .hosting := by
  have htrack := rule.own_track
  cases htype : rule.type with
  | hosting => rfl
  | user =>
    rw [htype] at htrack
    obtain ⟨hincome, hinstances⟩ := htrack
    rw [hasActiveCondition, hincome, hinstances] at h
    cases h

/-- To look only at the rules with a condition leaves the level as it is. -/
theorem calculateVipLevel_hosting_eq (rules : List NormalizedVipRule)
    (stats : VipStats .hosting) :
    calculateVipLevel .hosting rules stats = Ranked.best NormalizedVipRule.level
      (isVipRuleMatched .hosting · stats)
      (rules.filter fun rule => rule.enabled && hasActiveCondition .hosting rule) := by
  rw [calculateVipLevel_eq_best, Ranked.best_filter]
  refine Ranked.best_congr fun rule _ => Bool.eq_iff_iff.mpr ?_
  rw [Bool.and_eq_true, Bool.and_eq_true, Bool.and_eq_true, beq_iff_eq]
  constructor
  · rintro ⟨-, hmatched⟩
    exact ⟨hmatched, hasActiveCondition_of_matched hmatched⟩
  · rintro ⟨hmatched, -, hactive⟩
    exact ⟨type_of_hasActiveCondition hactive, hmatched⟩

/-- Whatever the rules are, the expression is written, and in every row it has the level that
is computed from the statistics of the row; the levels grow with the statistics. -/
theorem hosting_vip_levels_agree (rules : List NormalizedVipRule) :
    (∃ sql, buildHostingVipSql rules = some sql ∧
      ∀ row, sql.value row = some (calculateVipLevel .hosting rules row.stats : ℤ)) ∧
    (∀ type, Monotone (calculateVipLevel type rules)) ∧
    ∀ userMetric, Monotone fun stats => calculateUserVipLevelByMetric rules stats userMetric := by
  refine ⟨?_, fun type => calculateVipLevel_mono type rules,
    calculateUserVipLevelByMetric_mono rules⟩
  set active := rules.filter fun rule => rule.enabled && hasActiveCondition .hosting rule
    with hactive
  have hlevel : ∀ row : HostingOwnerRow, calculateVipLevel .hosting rules row.stats =
      (((Ranked.downwards NormalizedVipRule.level active).find?
        (isVipRuleMatched .hosting · row.stats)).map NormalizedVipRule.level).getD 0 :=
    fun row => (calculateVipLevel_hosting_eq rules row.stats).trans
      (Ranked.find?_downwards _ _ _).symm
  by_cases hnone : (Ranked.downwards NormalizedVipRule.level active).length = 0
  · refine ⟨_, by rw [buildHostingVipSql, ← hactive]; exact if_pos hnone, fun row => ?_⟩
    rw [hlevel row, List.length_eq_zero_iff.mp hnone]
    exact congrArg some (mul_zero row.id)
  · have hcase : ∀ rule ∈ Ranked.downwards NormalizedVipRule.level active,
        ∃ p, hostingCase rule = some (p, (rule.level : ℤ)) ∧
          ∀ row, p.holds row = isVipRuleMatched .hosting rule row.stats := by
      intro rule hrule
      have hmem : rule ∈ active := (List.mem_insertionSort _).mp hrule
      have hkept := (List.mem_filter.mp hmem).2
      rw [Bool.and_eq_true] at hkept
      exact hostingCase_spec hkept.1 hkept.2
    obtain ⟨branches, hbranches, hfirst⟩ := Sql.firstTrue_mapM hcase
    refine ⟨.caseWhen branches 0, ?_, fun row => ?_⟩
    · rw [buildHostingVipSql, ← hactive]
      exact (if_neg hnone).trans (by rw [hbranches]; rfl)
    · show some ((Sql.firstTrue branches row).getD 0) = _
      rw [hfirst, hlevel]
      cases List.find? (isVipRuleMatched .hosting · row.stats) _ with
      | none => rfl
      | some rule => rfl

end Incudal
