/-
# `VipBenefits` — rewards that are claimed level by level

A reward belongs to a VIP level and may be claimed up to its limit, once every
reward of the lower levels has been claimed.  The overview decides this for all
rewards at once, from three queries; a claim decides it again for one reward,
inside its transaction, and inserts a row whose number the unique key of user,
reward and number protects against a concurrent claim.

Both decide alike (`VipTables.sound`), as long as the payment itself goes
through.  A limit that an administrator lowers is not checked against the
claims there are; `lowered` keeps which rewards that has happened to.  A call
of a claim is a list of statements between which other steps may come
(`vip_records_sound`); with nothing in between, it is `claimVipBenefitReward`
(`claim_alone`).
-/
import Incudal.Basic
import Incudal.Lib.Machine
import Incudal.Store
import Mathlib.Algebra.Order.Floor.Ring
import Mathlib.Data.List.Sort
import Mathlib.Data.Rat.Floor
import Mathlib.Tactic.Linarith
import Mathlib.Tactic.Positivity

namespace Incudal

/-! ## Rows -/

inductive VipRewardType
  | balance | points | ofInstance
deriving DecidableEq, Repr

/-- The columns of `vip_benefit_rewards` that a claim reads; `amount` is that of `config`, zero
where there is none. -/
structure VipBenefitReward where
  id : ℕ
  level : ℕ
  type : VipRewardType
  claimLimit : ℕ
  sortOrder : ℕ
  enabled : Bool
  amount : ℚ
deriving DecidableEq, Repr

structure VipBenefitClaim where
  userId : ℕ
  rewardId : ℕ
  level : ℕ
  claimNo : ℕ
  /-- the status: `delivered`, or `pending` for an instance -/
  delivered : Bool
deriving DecidableEq, Repr

/-- What a claim pays into. -/
structure VipUser where
  balance : ℚ := 0
  points : ℕ := 0
  totalEarned : ℕ := 0
deriving DecidableEq, Repr

structure VipBenefitError where
  code : String
  message : String
  statusCode : ℕ := 400
deriving DecidableEq, Repr

/-! ## The data of a reward -/

def maxMoneyAmount : ℚ := 9999999999 / 100
def maxPointsAmount : ℕ := 1000000000
def maxClaimLimit : ℕ := 100
def maxSortOrder : ℕ := 1000000
def maxVipLevel : ℕ := 10

/-- `Math.round(value * 100) / 100`. -/
def roundMoney (value : ℚ) : ℚ := ⌊value * 100 + 1 / 2⌋ / 100

/-- `normalizeMoney`; `none` is what is not a number. -/
def normalizeMoney (value : Option ℚ) (field : String) : Except VipBenefitError ℚ :=
  match value with
  | some parsed =>
      if parsed ≤ 0 ∨ maxMoneyAmount < parsed then
        .error ⟨"INVALID_AMOUNT", s!"{field} must be between 0.01 and 99999999.99", 400⟩
      else .ok (roundMoney parsed)
  | none => .error ⟨"INVALID_AMOUNT", s!"{field} must be between 0.01 and 99999999.99", 400⟩

def normalizePositiveInteger (value : Option ℚ) (field : String) (max : ℕ) :
    Except VipBenefitError ℕ :=
  match value with
  | some parsed =>
      if parsed.den = 1 ∧ 0 < parsed ∧ parsed ≤ max then .ok parsed.num.toNat
      else .error ⟨"INVALID_NUMBER", s!"{field} must be an integer between 1 and {max}", 400⟩
  | none => .error ⟨"INVALID_NUMBER", s!"{field} must be an integer between 1 and {max}", 400⟩

def normalizeOptionalPositiveInteger (value : Option ℚ) (fallback : ℕ) (field : String)
    (max : ℕ) : Except VipBenefitError ℕ :=
  match value with
  | none => .ok fallback
  | some _ => normalizePositiveInteger value field max

def normalizeLevel (value : Option ℚ) : Except VipBenefitError ℕ :=
  match value with
  | some level =>
      if level.den = 1 ∧ 1 ≤ level ∧ level ≤ maxVipLevel then .ok level.num.toNat
      else .error ⟨"INVALID_LEVEL", s!"VIP level must be between 1 and {maxVipLevel}", 400⟩
  | none => .error ⟨"INVALID_LEVEL", s!"VIP level must be between 1 and {maxVipLevel}", 400⟩

def normalizeSortOrder (value : Option ℚ) : Except VipBenefitError ℕ :=
  let parsed := value.getD 0
  if parsed.den = 1 ∧ 0 ≤ parsed ∧ parsed ≤ maxSortOrder then .ok parsed.num.toNat
  else .error
    ⟨"INVALID_SORT_ORDER", s!"Sort order must be an integer between 0 and {maxSortOrder}", 400⟩

def normalizeRewardType (value : Option VipRewardType) : Except VipBenefitError VipRewardType :=
  match value with
  | some type => .ok type
  | none => .error ⟨"INVALID_REWARD_TYPE", "Invalid VIP benefit reward type", 400⟩

/-- The amount of `normalizeRewardConfig`, with `validateInstanceConfig`: `planActive` is whether
the package and the plan of the config are there and active. -/
def normalizeRewardConfig (type : VipRewardType) (amount : Option ℚ) (planActive : Bool) :
    Except VipBenefitError ℚ :=
  match type with
  | .balance => normalizeMoney amount "Balance reward amount"
  | .points =>
      match normalizePositiveInteger amount "Points reward amount" maxPointsAmount with
      | .error error => .error error
      | .ok amount => .ok amount
  | .ofInstance =>
      if planActive then .ok 0
      else .error
        ⟨"INVALID_INSTANCE_REWARD", "Instance reward requires a package and plan", 400⟩

/-- The amount of `normalizeStoredRewardConfig`. -/
def normalizeStoredRewardConfig (type : VipRewardType) (amount : ℚ) : ℚ :=
  match type with
  | .balance => roundMoney (max 0 amount)
  | .points => max 0 ⌊amount⌋
  | .ofInstance => 0

/-- What is sent of a reward; `config` is the amount of its config. -/
structure VipBenefitRewardInput where
  level : Option ℚ := none
  type : Option VipRewardType := none
  claimLimit : Option ℚ := none
  sortOrder : Option ℚ := none
  enabled : Option Bool := none
  config : Option (Option ℚ) := none
deriving DecidableEq, Repr

/-- `normalizeRewardData`, the title and the description left out. -/
def normalizeRewardData (id : ℕ) (input : VipBenefitRewardInput) (planActive : Bool)
    (base : Option VipBenefitReward) : Except VipBenefitError VipBenefitReward := do
  let type ← normalizeRewardType (input.type <|> base.map (·.type))
  let rawConfig := input.config.getD (base.map (·.amount))
  let amount ← normalizeRewardConfig type rawConfig planActive
  let level ← normalizeLevel (input.level <|> base.map fun reward => (reward.level : ℚ))
  let claimLimit ← normalizeOptionalPositiveInteger
    (input.claimLimit <|> base.map fun reward => (reward.claimLimit : ℚ)) 1 "Claim limit"
    maxClaimLimit
  let sortOrder ← normalizeSortOrder
    (input.sortOrder <|> base.map fun reward => (reward.sortOrder : ℚ))
  let enabled := input.enabled.getD (base.all (·.enabled))
  return { id, level, type, claimLimit, sortOrder, enabled, amount }

/-! ## Claims -/

/-- Where a call of `claimVipBenefitReward` is; its queries see what is committed then. -/
inductive VipStage
  | started
  | levelRead (vipLevel : ℕ)
  | rewardRead (vipLevel : ℕ) (reward : VipBenefitReward)
  | lowerRead (reward : VipBenefitReward) (lowerRewards : List VipBenefitReward)
  | checked (reward : VipBenefitReward) (existingCount : ℕ)
  | done (error : Option VipBenefitError)

structure VipCall where
  userId : ℕ
  rewardId : ℕ
  stage : VipStage

structure VipWorld where
  rewards : List VipBenefitReward := []
  claims : List VipBenefitClaim := []
  users : ℕ → Option VipUser
  /-- what the rules make of a user's statistics -/
  levels : ℕ → ℕ
  calls : List VipCall := []
  /-- the rows that calls of `updateVipBenefitReward` have read -/
  updates : List VipBenefitReward := []
  nextId : ℕ := 1
  /-- the rewards whose limit an update has lowered -/
  lowered : List ℕ := []

/-- The order of `level`, `sortOrder`, `id`. -/
def VipBenefitReward.before (a b : VipBenefitReward) : Prop :=
  a.level < b.level ∨ a.level = b.level ∧
    (a.sortOrder < b.sortOrder ∨ a.sortOrder = b.sortOrder ∧ a.id ≤ b.id)

instance : DecidableRel VipBenefitReward.before :=
  fun a b => inferInstanceAs (Decidable (a.level < b.level ∨ a.level = b.level ∧
    (a.sortOrder < b.sortOrder ∨ a.sortOrder = b.sortOrder ∧ a.id ≤ b.id)))

def rewardNotFound : VipBenefitError := ⟨"REWARD_NOT_FOUND", "VIP benefit reward not found", 404⟩

/-- The largest value of an `Int` column. -/
def maxInt : ℕ := 2147483647

namespace VipWorld

variable (w : VipWorld)

/-- The user's claims of a reward. -/
def claimsOf (userId rewardId : ℕ) : List VipBenefitClaim :=
  w.claims.filter fun c => c.userId == userId && c.rewardId == rewardId

def claimCount (userId rewardId : ℕ) : ℕ := (w.claimsOf userId rewardId).length

def findReward (rewardId : ℕ) : Option VipBenefitReward :=
  w.rewards.find? fun r => r.id == rewardId && r.enabled

def inOrder (rewards : List VipBenefitReward) : List VipBenefitReward :=
  rewards.insertionSort VipBenefitReward.before

def lowerRewards (reward : VipBenefitReward) (vipLevel : ℕ) : List VipBenefitReward :=
  inOrder (w.rewards.filter fun r => r.enabled && r.level < reward.level && r.level ≤ vipLevel)

/-- The checks on the counted claims; what is returned is how often the reward is claimed. -/
def checkClaims (reward : VipBenefitReward) (lowerRewards : List VipBenefitReward)
    (claimCounts : ℕ → ℕ) : Except VipBenefitError ℕ :=
  match lowerRewards.find? fun item => claimCounts item.id < item.claimLimit with
  | some blockingReward => .error ⟨"LOWER_LEVEL_REWARD_REQUIRED",
      s!"Please claim all VIP{blockingReward.level} rewards first", 409⟩
  | none =>
      if reward.claimLimit ≤ claimCounts reward.id then
        .error ⟨"CLAIM_LIMIT_REACHED", "This VIP benefit reward has already been fully claimed", 409⟩
      else .ok (claimCounts reward.id)

/-- The payment of a claim: what becomes of the user. -/
def payReward (reward : VipBenefitReward) (user : VipUser) : Except VipBenefitError VipUser :=
  let config := normalizeStoredRewardConfig reward.type reward.amount
  match reward.type with
  | .balance =>
      match normalizeMoney (some config) "Balance reward amount" with
      | .error error => .error error
      | .ok amount => .ok { user with balance := user.balance + amount }
  | .points =>
      match normalizePositiveInteger (some config) "Points reward amount" maxPointsAmount with
      | .error error => .error error
      | .ok amount =>
          if maxInt < user.points + amount ∨ maxInt < user.totalEarned + amount then
            .error ⟨"P2020", "Value out of range for the type", 500⟩
          else .ok { user with
            points := user.points + amount, totalEarned := user.totalEarned + amount }
  | .ofInstance => .ok user

/-- The inserts of a claim, and its commit. -/
def createClaim (userId : ℕ) (reward : VipBenefitReward) (existingCount : ℕ) :
    Except VipBenefitError VipWorld :=
  if !w.rewards.any (·.id == reward.id) then
    .error ⟨"P2003", "Foreign key constraint violated", 500⟩
  else if (w.claimsOf userId reward.id).any (·.claimNo == existingCount + 1) then
    .error ⟨"CLAIM_CONFLICT",
      "This VIP benefit reward was already claimed, please refresh and try again", 409⟩
  else
    match w.users userId with
    | none => .error ⟨"P2003", "Foreign key constraint violated", 500⟩
    | some user =>
        match payReward reward user with
        | .error error => .error error
        | .ok user => .ok { w with
            claims := w.claims ++
              [{ userId
                 rewardId := reward.id
                 level := reward.level
                 claimNo := existingCount + 1
                 delivered := reward.type != .ofInstance }]
            users := Function.update w.users userId (some user) }

/-- `claimVipBenefitReward`, with nothing in between. -/
def claimVipBenefitReward (userId rewardId : ℕ) : Except VipBenefitError VipWorld :=
  if rewardId = 0 then .error ⟨"INVALID_REWARD_ID", "Invalid VIP benefit reward ID", 400⟩
  else
    let vipLevel := w.levels userId
    match w.findReward rewardId with
    | none => .error rewardNotFound
    | some reward =>
        if vipLevel < reward.level then
          .error ⟨"VIP_LEVEL_REQUIRED", s!"VIP{reward.level} is required to claim this reward", 403⟩
        else
          match checkClaims reward (w.lowerRewards reward vipLevel) (w.claimCount userId) with
          | .error error => .error error
          | .ok existingCount => w.createClaim userId reward existingCount

end VipWorld

/-! ## The overview -/

inductive VipRewardState
  | claimable | claimed | locked | blocked
deriving DecidableEq, Repr

/-- What the overview shows of a reward. -/
structure VipRewardView where
  reward : VipBenefitReward
  claimedCount : ℕ
  remainingClaims : ℕ
  state : VipRewardState
  blockedByLevel : Option ℕ
deriving DecidableEq, Repr

namespace VipWorld

variable (w : VipWorld)

def enabledRewards : List VipBenefitReward := inOrder (w.rewards.filter (·.enabled))

def remainingClaims (userId : ℕ) (reward : VipBenefitReward) : ℕ :=
  reward.claimLimit - w.claimCount userId reward.id

/-- `outstandingLevels`. -/
def outstandingLevels (userId : ℕ) : List ℕ :=
  (w.enabledRewards.filter fun r =>
    r.level ≤ w.levels userId && 0 < w.remainingClaims userId r).map (·.level)

/-- The least of the outstanding levels below. -/
def lowerOutstanding (userId : ℕ) (reward : VipBenefitReward) : Option ℕ :=
  ((w.outstandingLevels userId).filter (· < reward.level)).min?

def rewardState (userId : ℕ) (reward : VipBenefitReward) : VipRewardState :=
  if w.remainingClaims userId reward = 0 then .claimed
  else if w.levels userId < reward.level then .locked
  -- a level of zero would count as none
  else if (w.lowerOutstanding userId reward).getD 0 ≠ 0 then .blocked
  else .claimable

/-- The rewards of `getVipBenefitOverview`. -/
def getVipBenefitOverview (userId : ℕ) : List VipRewardView :=
  w.enabledRewards.map fun reward =>
    { reward
      claimedCount := w.claimCount userId reward.id
      remainingClaims := w.remainingClaims userId reward
      state := w.rewardState userId reward
      blockedByLevel :=
        if w.rewardState userId reward = .blocked then w.lowerOutstanding userId reward else none }

end VipWorld

/-! ## Steps -/

/-- What happens to the rewards, the claims and the users. -/
inductive VipEvent
  | createVipBenefitReward (input : VipBenefitRewardInput) (planActive : Bool)
  /-- `updateVipBenefitReward` reads the row -/
  | readForUpdate (id : ℕ)
  /-- and writes it -/
  | updateVipBenefitReward (existing : VipBenefitReward) (input : VipBenefitRewardInput)
      (planActive : Bool)
  | deleteVipBenefitReward (id : ℕ)
  | setLevel (userId level : ℕ)
  /-- whatever else changes a user's balance and points -/
  | setUser (userId : ℕ) (user : VipUser)
  | deleteUser (userId : ℕ)
  | claim (userId rewardId : ℕ)
  | statement (k : ℕ)
  /-- a claim that has not committed ends anywhere -/
  | crash (k : ℕ)
deriving DecidableEq, Repr

namespace VipWorld

variable (w : VipWorld)

def setStage (k : ℕ) (call : VipCall) (stage : VipStage) : VipWorld :=
  { w with calls := w.calls.set k { call with stage } }

/-- `vipBenefitReward.create`. -/
def insertReward (reward : VipBenefitReward) : VipWorld :=
  { w with rewards := w.rewards ++ [reward], nextId := w.nextId + 1 }

/-- `vipBenefitReward.update`. -/
def writeReward (reward : VipBenefitReward) : VipWorld :=
  { w with
    rewards := w.rewards.map fun r => if r.id = reward.id then reward else r
    lowered := w.lowered ++ (w.rewards.filter fun r =>
      r.id = reward.id && reward.claimLimit < r.claimLimit).map (·.id) }

/-- `vipBenefitReward.delete`; the claims go with the row. -/
def deleteReward (id : ℕ) : VipWorld :=
  { w with
    rewards := w.rewards.filter (·.id != id)
    claims := w.claims.filter (·.rewardId != id) }

/-- `deleteUser`; the claims go with the row. -/
def deleteUser (userId : ℕ) : VipWorld :=
  { w with
    users := Function.update w.users userId none
    claims := w.claims.filter (·.userId != userId) }

/-- The next statement of a claim. -/
def statement (k : ℕ) (call : VipCall) : Option VipWorld :=
  match call.stage with
  | .started =>
      if call.rewardId = 0 then
        some (w.setStage k call
          (.done (some ⟨"INVALID_REWARD_ID", "Invalid VIP benefit reward ID", 400⟩)))
      else some (w.setStage k call (.levelRead (w.levels call.userId)))
  | .levelRead vipLevel =>
      match w.findReward call.rewardId with
      | none => some (w.setStage k call (.done (some rewardNotFound)))
      | some reward =>
          if vipLevel < reward.level then
            some (w.setStage k call (.done (some
              ⟨"VIP_LEVEL_REQUIRED", s!"VIP{reward.level} is required to claim this reward", 403⟩)))
          else some (w.setStage k call (.rewardRead vipLevel reward))
  | .rewardRead vipLevel reward =>
      some (w.setStage k call (.lowerRead reward (w.lowerRewards reward vipLevel)))
  | .lowerRead reward lowerRewards =>
      match checkClaims reward lowerRewards (w.claimCount call.userId) with
      | .error error => some (w.setStage k call (.done (some error)))
      | .ok existingCount => some (w.setStage k call (.checked reward existingCount))
  | .checked reward existingCount =>
      match w.createClaim call.userId reward existingCount with
      | .error error => some (w.setStage k call (.done (some error)))
      | .ok w' => some (w'.setStage k call (.done none))
  | .done _ => none

end VipWorld

def vipStep (w : VipWorld) : VipEvent → Option VipWorld
  | .createVipBenefitReward input planActive =>
      match normalizeRewardData w.nextId input planActive none with
      | .error _ => none
      | .ok reward => some (w.insertReward reward)
  | .readForUpdate id =>
      match w.rewards.find? (·.id == id) with
      | none => none
      | some existing => some { w with updates := w.updates ++ [existing] }
  | .updateVipBenefitReward existing input planActive =>
      if existing ∈ w.updates then
        match normalizeRewardData existing.id input planActive (some existing) with
        | .error _ => none
        | .ok reward => some (w.writeReward reward)
      else none
  | .deleteVipBenefitReward id => some (w.deleteReward id)
  | .setLevel userId level => some { w with levels := Function.update w.levels userId level }
  | .setUser userId user =>
      if (w.users userId).isSome then
        some { w with users := Function.update w.users userId (some user) }
      else none
  | .deleteUser userId => some (w.deleteUser userId)
  | .claim userId rewardId =>
      some { w with calls := w.calls ++ [{ userId, rewardId, stage := .started }] }
  | .statement k =>
      match w.calls[k]? with
      | none => none
      | some call => w.statement k call
  | .crash k =>
      match w.calls[k]? with
      | none => none
      | some call =>
          match call.stage with
          | .done _ => none
          | _ => some (w.setStage k call (.done (some ⟨"P1017", "connection lost", 500⟩)))

/-! ## The property -/

/-- The payment goes through: a balance reward is not worth nothing, and points stay within
their column. -/
def VipBenefitReward.paysOut (reward : VipBenefitReward) (user : VipUser) : Prop :=
  match reward.type with
  | .balance => reward.amount ≠ 0
  | .points => user.points + reward.amount ≤ maxInt ∧ user.totalEarned + reward.amount ≤ maxInt
  | .ofInstance => True

/-- The overview and the claims agree; the claims are numbered, within limits that were not
lowered; and the levels unlock in order. -/
structure VipRecordsSound (w : VipWorld) : Prop where
  claimable_iff : ∀ userId user rewardId, w.users userId = some user →
    (∀ reward ∈ w.rewards, reward.id = rewardId → reward.paysOut user) →
    ((∃ view ∈ w.getVipBenefitOverview userId,
        view.reward.id = rewardId ∧ view.state = .claimable) ↔
      ∃ w', w.claimVipBenefitReward userId rewardId = .ok w')
  numbered : ∀ userId rewardId, (w.claimsOf userId rewardId).map (·.claimNo) =
    (List.range (w.claimCount userId rewardId)).map (· + 1)
  limited : ∀ reward ∈ w.rewards, ∀ userId,
    w.claimCount userId reward.id ≤ reward.claimLimit ∨ reward.id ∈ w.lowered
  inOrder : ∀ userId, ∀ view ∈ w.getVipBenefitOverview userId, view.state = .claimable →
    ∀ lower ∈ w.rewards, lower.enabled = true → lower.level < view.reward.level →
      lower.claimLimit ≤ w.claimCount userId lower.id

/-! ## What is stored of a reward -/

theorem roundMoney_intCast (n : ℤ) : roundMoney (n / 100) = n / 100 := by
  have hscaled : (n : ℚ) / 100 * 100 + 1 / 2 = n + 1 / 2 := by ring
  have hfloor : ⌊(n : ℚ) + 1 / 2⌋ = n := by
    rw [Int.floor_intCast_add]
    norm_num
  rw [roundMoney, hscaled, hfloor]

theorem roundMoney_roundMoney (value : ℚ) : roundMoney (roundMoney value) = roundMoney value :=
  roundMoney_intCast _

theorem roundMoney_nonneg {value : ℚ} (h : 0 ≤ value) : 0 ≤ roundMoney value := by
  have hfloor : 0 ≤ ⌊value * 100 + 1 / 2⌋ := Int.floor_nonneg.mpr (by linarith)
  have hcast : (0 : ℚ) ≤ ⌊value * 100 + 1 / 2⌋ := by exact_mod_cast hfloor
  exact div_nonneg hcast (by norm_num)

theorem roundMoney_le_max {value : ℚ} (h : value ≤ maxMoneyAmount) :
    roundMoney value ≤ maxMoneyAmount := by
  have hmono : ⌊value * 100 + 1 / 2⌋ ≤ ⌊maxMoneyAmount * 100 + 1 / 2⌋ :=
    Int.floor_le_floor (by linarith)
  have hmax : roundMoney maxMoneyAmount = maxMoneyAmount := roundMoney_intCast 9999999999
  have hcast : (⌊value * 100 + 1 / 2⌋ : ℚ) ≤ ⌊maxMoneyAmount * 100 + 1 / 2⌋ := by
    exact_mod_cast hmono
  exact (div_le_div_of_nonneg_right hcast (by norm_num)).trans_eq hmax

/-- The amounts that a reward of a type is stored with. -/
def VipRewardType.Stores (type : VipRewardType) (amount : ℚ) : Prop :=
  match type with
  | .balance => ∃ value, 0 < value ∧ value ≤ maxMoneyAmount ∧ amount = roundMoney value
  | .points => ∃ n : ℕ, 0 < n ∧ n ≤ maxPointsAmount ∧ amount = n
  | .ofInstance => True

theorem normalizeMoney_spec {value : Option ℚ} {field : String} {amount : ℚ}
    (h : normalizeMoney value field = .ok amount) : VipRewardType.balance.Stores amount := by
  cases value with
  | none => cases h
  | some parsed =>
    simp only [normalizeMoney] at h
    split_ifs at h with hrange
    obtain rfl := Except.ok.inj h
    rw [not_or, not_le, not_lt] at hrange
    exact ⟨parsed, hrange.1, hrange.2, rfl⟩

theorem normalizePositiveInteger_spec {value : Option ℚ} {field : String} {max n : ℕ}
    (h : normalizePositiveInteger value field max = .ok n) : 0 < n ∧ n ≤ max := by
  cases value with
  | none => cases h
  | some parsed =>
    simp only [normalizePositiveInteger] at h
    split_ifs at h with hrange
    obtain rfl := Except.ok.inj h
    obtain ⟨hden, hpos, hmax⟩ := hrange
    have hnum : (parsed.num : ℚ) = parsed := Rat.den_eq_one_iff parsed |>.mp hden
    rw [← hnum] at hpos hmax
    norm_cast at hpos hmax
    exact ⟨by omega, by omega⟩

theorem normalizeLevel_spec {value : Option ℚ} {level : ℕ} (h : normalizeLevel value = .ok level) :
    1 ≤ level := by
  cases value with
  | none => cases h
  | some parsed =>
    simp only [normalizeLevel] at h
    split_ifs at h with hrange
    obtain rfl := Except.ok.inj h
    obtain ⟨hden, hpos, -⟩ := hrange
    have hnum : (parsed.num : ℚ) = parsed := Rat.den_eq_one_iff parsed |>.mp hden
    rw [← hnum] at hpos
    norm_cast at hpos
    omega

theorem normalizeRewardConfig_spec {type : VipRewardType} {value : Option ℚ} {planActive : Bool}
    {amount : ℚ} (h : normalizeRewardConfig type value planActive = .ok amount) :
    type.Stores amount := by
  cases type with
  | balance => exact normalizeMoney_spec h
  | points =>
    simp only [normalizeRewardConfig] at h
    cases hn : normalizePositiveInteger value "Points reward amount" maxPointsAmount with
    | error error => rw [hn] at h; cases h
    | ok n =>
      rw [hn] at h
      obtain rfl := Except.ok.inj h
      obtain ⟨hpos, hmax⟩ := normalizePositiveInteger_spec hn
      exact ⟨n, hpos, hmax, rfl⟩
  | ofInstance => trivial

/-- What every row of `vip_benefit_rewards` satisfies. -/
structure VipBenefitReward.Valid (reward : VipBenefitReward) : Prop where
  level_pos : 1 ≤ reward.level
  stores : reward.type.Stores reward.amount

theorem normalizeRewardData_spec {id : ℕ} {input : VipBenefitRewardInput} {planActive : Bool}
    {base : Option VipBenefitReward} {reward : VipBenefitReward}
    (h : normalizeRewardData id input planActive base = .ok reward) :
    reward.id = id ∧ reward.Valid := by
  unfold normalizeRewardData at h
  obtain ⟨type, -, h⟩ := exists_of_bind_ok h
  obtain ⟨amount, hamount, h⟩ := exists_of_bind_ok h
  obtain ⟨level, hlevel, h⟩ := exists_of_bind_ok h
  obtain ⟨claimLimit, -, h⟩ := exists_of_bind_ok h
  obtain ⟨sortOrder, -, h⟩ := exists_of_bind_ok h
  obtain rfl := Except.ok.inj h
  exact ⟨rfl, normalizeLevel_spec hlevel, normalizeRewardConfig_spec hamount⟩

/-- The amount a reward is stored with is what a claim reads of it. -/
theorem VipBenefitReward.Valid.readsStored {reward : VipBenefitReward} (h : reward.Valid) :
    reward.type ≠ .ofInstance →
      normalizeStoredRewardConfig reward.type reward.amount = reward.amount := by
  intro htype
  have hstores := h.stores
  cases hreward : reward.type with
  | balance =>
    rw [hreward] at hstores
    obtain ⟨value, hpos, -, hamount⟩ := hstores
    simp only [normalizeStoredRewardConfig]
    rw [hamount, max_eq_right (roundMoney_nonneg hpos.le), roundMoney_roundMoney]
  | points =>
    rw [hreward] at hstores
    obtain ⟨n, -, -, hamount⟩ := hstores
    simp [normalizeStoredRewardConfig, hamount]
  | ofInstance => exact absurd hreward htype

theorem payReward_of_paysOut {reward : VipBenefitReward} {user : VipUser} (h : reward.Valid)
    (hpays : reward.paysOut user) : ∃ user', VipWorld.payReward reward user = .ok user' := by
  have hstores := h.stores
  have hstored := h.readsStored
  cases hreward : reward.type with
  | balance =>
    simp only [hreward, VipBenefitReward.paysOut] at hstores hstored hpays
    obtain ⟨value, hpos, hmax, hamount⟩ := hstores
    have hnonneg : 0 ≤ reward.amount := hamount ▸ roundMoney_nonneg hpos.le
    have hle : reward.amount ≤ maxMoneyAmount := hamount ▸ roundMoney_le_max hmax
    have hpositive : 0 < reward.amount := lt_of_le_of_ne hnonneg (Ne.symm hpays)
    have hmoney : normalizeMoney (some reward.amount) "Balance reward amount" =
        .ok (roundMoney reward.amount) :=
      if_neg (not_or.mpr ⟨not_le.mpr hpositive, not_lt.mpr hle⟩)
    simp only [VipWorld.payReward, hreward, hstored (by decide), hmoney]
    exact ⟨_, rfl⟩
  | points =>
    simp only [hreward, VipBenefitReward.paysOut] at hstores hstored hpays
    obtain ⟨n, hpos, hmax, hamount⟩ := hstores
    have hinteger : normalizePositiveInteger (some reward.amount) "Points reward amount"
        maxPointsAmount = .ok n := by
      simp only [normalizePositiveInteger, hamount]
      rw [if_pos ⟨by simp, by exact_mod_cast hpos, by exact_mod_cast hmax⟩]
      simp
    rw [hamount] at hpays
    have hpoints : user.points + n ≤ maxInt := by exact_mod_cast hpays.1
    have hearned : user.totalEarned + n ≤ maxInt := by exact_mod_cast hpays.2
    simp only [VipWorld.payReward, hreward, hstored (by decide), hinteger]
    rw [if_neg (not_or.mpr ⟨not_lt.mpr hpoints, not_lt.mpr hearned⟩)]
    exact ⟨_, rfl⟩
  | ofInstance =>
    simp only [VipWorld.payReward, hreward]
    exact ⟨user, rfl⟩

/-! ## The two decisions -/

/-- What holds of the rewards and the claims, whatever calls are under way. -/
structure VipTables (w : VipWorld) : Prop where
  nextId : 0 < w.nextId
  ids : (w.rewards.map (·.id)).Nodup
  rows : ∀ reward ∈ w.rewards, 0 < reward.id ∧ reward.id < w.nextId ∧ reward.Valid
  claims : ∀ c ∈ w.claims, c.rewardId < w.nextId
  numbered : ∀ userId rewardId, (w.claimsOf userId rewardId).map (·.claimNo) =
    (List.range (w.claimCount userId rewardId)).map (· + 1)
  limited : ∀ reward ∈ w.rewards, ∀ userId,
    w.claimCount userId reward.id ≤ reward.claimLimit ∨ reward.id ∈ w.lowered

namespace VipWorld

variable {w w' : VipWorld} {userId rewardId existingCount n : ℕ}
  {reward : VipBenefitReward} {user : VipUser}

theorem mem_lowerRewards {r : VipBenefitReward} {vipLevel : ℕ} :
    r ∈ w.lowerRewards reward vipLevel ↔
      r ∈ w.rewards ∧ r.enabled = true ∧ r.level < reward.level ∧ r.level ≤ vipLevel := by
  unfold lowerRewards inOrder
  rw [(List.perm_insertionSort _ _).mem_iff]
  simp [and_assoc]

theorem mem_enabledRewards : reward ∈ w.enabledRewards ↔
    reward ∈ w.rewards ∧ reward.enabled = true := by
  unfold enabledRewards inOrder
  rw [(List.perm_insertionSort _ _).mem_iff, List.mem_filter]

theorem checkClaims_eq_ok {lowerRewards : List VipBenefitReward} {claimCounts : ℕ → ℕ} :
    checkClaims reward lowerRewards claimCounts = .ok n ↔
      (∀ item ∈ lowerRewards, item.claimLimit ≤ claimCounts item.id) ∧
        claimCounts reward.id < reward.claimLimit ∧ claimCounts reward.id = n := by
  unfold checkClaims
  cases hblocking : lowerRewards.find? fun item => claimCounts item.id < item.claimLimit with
  | some blockingReward =>
    have hmem := List.mem_of_find?_eq_some hblocking
    have hless : claimCounts blockingReward.id < blockingReward.claimLimit := by
      simpa using List.find?_some hblocking
    constructor
    · intro h
      cases h
    · rintro ⟨hall, -⟩
      exact absurd (hall blockingReward hmem) (Nat.not_le.mpr hless)
  | none =>
    have hall : ∀ item ∈ lowerRewards, item.claimLimit ≤ claimCounts item.id := by
      simpa using hblocking
    by_cases hlimit : reward.claimLimit ≤ claimCounts reward.id
    · simp only [if_pos hlimit]
      constructor
      · intro h
        cases h
      · rintro ⟨-, hless, -⟩
        exact absurd hlimit (Nat.not_le.mpr hless)
    · simp only [if_neg hlimit, Except.ok.injEq]
      exact ⟨fun h => ⟨hall, Nat.not_le.mp hlimit, h⟩, fun h => h.2.2⟩

theorem findReward_eq_some (h : VipTables w) : w.findReward rewardId = some reward ↔
    reward ∈ w.rewards ∧ reward.id = rewardId ∧ reward.enabled = true := by
  unfold findReward
  constructor
  · intro hfind
    have hfound := List.find?_some hfind
    rw [Bool.and_eq_true, beq_iff_eq] at hfound
    exact ⟨List.mem_of_find?_eq_some hfind, hfound⟩
  · rintro ⟨hmem, hid, henabled⟩
    cases hfind : w.rewards.find? fun r => r.id == rewardId && r.enabled with
    | none =>
      have hnone := List.find?_eq_none.mp hfind reward hmem
      exact absurd (by simp [hid, henabled]) hnone
    | some found =>
      have hfound := List.find?_some hfind
      rw [Bool.and_eq_true, beq_iff_eq] at hfound
      have hsame : found = reward := List.inj_on_of_nodup_map h.ids
        (List.mem_of_find?_eq_some hfind) hmem (hfound.1.trans hid.symm)
      rw [hsame]

/-- No reward below is left: the set of the overview is empty there. -/
theorem lowerOutstanding_eq_zero (h : VipTables w) :
    (w.lowerOutstanding userId reward).getD 0 = 0 ↔
      ∀ item ∈ w.lowerRewards reward (w.levels userId),
        item.claimLimit ≤ w.claimCount userId item.id := by
  have hmem : ∀ level, level ∈ (w.outstandingLevels userId).filter (· < reward.level) ↔
      ∃ item ∈ w.lowerRewards reward (w.levels userId),
        w.claimCount userId item.id < item.claimLimit ∧ item.level = level := by
    intro level
    simp only [outstandingLevels, List.mem_filter, List.mem_map, mem_enabledRewards,
      mem_lowerRewards, remainingClaims, decide_eq_true_eq, Bool.and_eq_true, Nat.sub_pos_iff_lt]
    constructor
    · rintro ⟨⟨item, ⟨⟨hitem, henabled⟩, hlevel, hless⟩, rfl⟩, hbelow⟩
      exact ⟨item, ⟨hitem, henabled, hbelow, hlevel⟩, hless, rfl⟩
    · rintro ⟨item, ⟨hitem, henabled, hbelow, hlevel⟩, hless, rfl⟩
      exact ⟨⟨item, ⟨⟨hitem, henabled⟩, hlevel, hless⟩, rfl⟩, hbelow⟩
  unfold lowerOutstanding
  cases hmin : ((w.outstandingLevels userId).filter (· < reward.level)).min? with
  | none =>
    have hnil := List.min?_eq_none_iff.mp hmin
    refine iff_of_true rfl fun item hitem => Nat.not_lt.mp fun hless => ?_
    have hin := (hmem item.level).mpr ⟨item, hitem, hless, rfl⟩
    rw [hnil] at hin
    exact List.not_mem_nil hin
  | some level =>
    obtain ⟨item, hitem, hless, hlevel⟩ := (hmem level).mp (List.min?_mem hmin)
    have hpos := (h.rows item (mem_lowerRewards.mp hitem).1).2.2.level_pos
    refine iff_of_false (fun hzero => ?_) fun hall =>
      absurd (hall item hitem) (Nat.not_le.mpr hless)
    exact absurd (hlevel.trans hzero) (Nat.pos_iff_ne_zero.mp hpos)

/-- What the overview calls claimable. -/
theorem rewardState_eq_claimable (h : VipTables w) :
    w.rewardState userId reward = .claimable ↔
      w.claimCount userId reward.id < reward.claimLimit ∧ reward.level ≤ w.levels userId ∧
        ∀ item ∈ w.lowerRewards reward (w.levels userId),
          item.claimLimit ≤ w.claimCount userId item.id := by
  rw [← lowerOutstanding_eq_zero h]
  unfold rewardState remainingClaims
  split_ifs with hclaimed hlocked hblocked
  · exact iff_of_false (by decide) fun hstate => by omega
  · exact iff_of_false (by decide) fun hstate => by omega
  · exact iff_of_false (by decide) fun hstate => hblocked hstate.2.2
  · exact iff_of_true rfl ⟨by omega, by omega, not_not.mp hblocked⟩

theorem view_claimable_iff (h : VipTables w) :
    (∃ view ∈ w.getVipBenefitOverview userId,
        view.reward.id = rewardId ∧ view.state = .claimable) ↔
      ∃ reward, w.findReward rewardId = some reward ∧
        w.rewardState userId reward = .claimable := by
  simp only [getVipBenefitOverview, List.mem_map, findReward_eq_some h]
  constructor
  · rintro ⟨_, ⟨reward, hreward, rfl⟩, hid, hstate⟩
    obtain ⟨hmem, henabled⟩ := mem_enabledRewards.mp hreward
    exact ⟨reward, ⟨hmem, hid, henabled⟩, hstate⟩
  · rintro ⟨reward, ⟨hmem, hid, henabled⟩, hstate⟩
    exact ⟨_, ⟨reward, mem_enabledRewards.mpr ⟨hmem, henabled⟩, rfl⟩, hid, hstate⟩

/-- The next number is free as long as the count is right. -/
theorem next_claimNo_free (h : VipTables w) :
    (w.claimsOf userId rewardId).any (·.claimNo == existingCount + 1) = true ↔
      existingCount < w.claimCount userId rewardId := by
  have hmem : existingCount + 1 ∈ (w.claimsOf userId rewardId).map (·.claimNo) ↔
      existingCount < w.claimCount userId rewardId := by
    rw [h.numbered]
    simp
  rw [← hmem]
  simp [List.any_eq_true]

theorem claimVipBenefitReward_ok_iff (h : VipTables w) (huser : w.users userId = some user)
    (hpays : ∀ reward ∈ w.rewards, reward.id = rewardId → reward.paysOut user) :
    (∃ w', w.claimVipBenefitReward userId rewardId = .ok w') ↔
      ∃ reward, w.findReward rewardId = some reward ∧
        w.rewardState userId reward = .claimable := by
  simp only [rewardState_eq_claimable h]
  unfold claimVipBenefitReward
  cases hfind : w.findReward rewardId with
  | none =>
    refine iff_of_false ?_ (by simp)
    rintro ⟨w', hok⟩
    split_ifs at hok
  | some reward =>
    obtain ⟨hmem, hid, -⟩ := (findReward_eq_some h).mp hfind
    obtain ⟨hpos, -, hvalid⟩ := h.rows reward hmem
    simp only [if_neg (hid ▸ Nat.pos_iff_ne_zero.mp hpos), Option.some.injEq, exists_eq_left']
    by_cases hlevel : w.levels userId < reward.level
    · simp only [if_pos hlevel]
      exact iff_of_false (fun ⟨_, hok⟩ => by cases hok)
        fun hstate => absurd hlevel (Nat.not_lt.mpr hstate.2.1)
    · simp only [if_neg hlevel]
      cases hcheck : checkClaims reward (w.lowerRewards reward (w.levels userId))
          (w.claimCount userId) with
      | error error =>
        refine iff_of_false (fun ⟨_, hok⟩ => by cases hok) fun hstate => ?_
        have hok := checkClaims_eq_ok.mpr ⟨hstate.2.2, hstate.1, rfl⟩
        rw [hok] at hcheck
        cases hcheck
      | ok existingCount =>
        obtain ⟨hlower, hless, rfl⟩ := checkClaims_eq_ok.mp hcheck
        refine iff_of_true ?_ ⟨hless, Nat.not_lt.mp hlevel, hlower⟩
        obtain ⟨user', hpaid⟩ := payReward_of_paysOut hvalid (hpays reward hmem hid)
        have hrow : w.rewards.any (·.id == reward.id) = true :=
          List.any_eq_true.mpr ⟨reward, hmem, by simp⟩
        have hfree : ¬(w.claimsOf userId reward.id).any
            (·.claimNo == w.claimCount userId reward.id + 1) = true :=
          fun htaken => Nat.lt_irrefl _ ((next_claimNo_free h).mp htaken)
        simp only [createClaim, hrow, huser, hpaid, if_neg hfree]
        exact ⟨_, rfl⟩

end VipWorld

theorem VipTables.sound {w : VipWorld} (h : VipTables w) : VipRecordsSound w where
  claimable_iff := by
    intro userId user rewardId huser hpays
    rw [VipWorld.view_claimable_iff h, VipWorld.claimVipBenefitReward_ok_iff h huser hpays]
  numbered := h.numbered
  limited := h.limited
  inOrder := by
    intro userId view hview hstate lower hlower henabled hbelow
    obtain ⟨reward, -, rfl⟩ := List.mem_map.mp hview
    obtain ⟨-, hlevel, hall⟩ := (VipWorld.rewardState_eq_claimable h).mp hstate
    exact hall lower (VipWorld.mem_lowerRewards.mpr
      ⟨hlower, henabled, hbelow, (Nat.le_of_lt hbelow).trans hlevel⟩)

/-! ## What a step keeps -/

/-- What a step keeps for the calls under way: rewards and users do not come back, a limit that
falls is recorded, and claims go only with their reward or their user. -/
structure VipKeeps (w w' : VipWorld) : Prop where
  nextId : w.nextId ≤ w'.nextId
  lowered : ∀ id ∈ w.lowered, id ∈ w'.lowered
  rows : ∀ r' ∈ w'.rewards, r'.id < w.nextId → ∃ r ∈ w.rewards, r.id = r'.id ∧
    (r.claimLimit ≤ r'.claimLimit ∨ r'.id ∈ w'.lowered)
  users : ∀ userId, (w'.users userId).isSome = true → (w.users userId).isSome = true
  counts : ∀ r' ∈ w'.rewards, ∀ userId, (w'.users userId).isSome = true →
    w.claimCount userId r'.id ≤ w'.claimCount userId r'.id

/-- The limit that a call has read is not above that of the row. -/
def VipWorld.LimitRead (w : VipWorld) (reward : VipBenefitReward) : Prop :=
  reward.id < w.nextId ∧ ∀ r ∈ w.rewards, r.id = reward.id →
    reward.claimLimit ≤ r.claimLimit ∨ r.id ∈ w.lowered

/-- What a call knows at its stage. -/
def VipCall.Knows (call : VipCall) (w : VipWorld) : Prop :=
  match call.stage with
  | .rewardRead _ reward | .lowerRead reward _ => w.LimitRead reward
  | .checked reward existingCount =>
      w.LimitRead reward ∧ existingCount < reward.claimLimit ∧
        ((w.users call.userId).isSome = true → (∃ r ∈ w.rewards, r.id = reward.id) →
          existingCount ≤ w.claimCount call.userId reward.id)
  | _ => True

structure VipInv (w : VipWorld) : Prop where
  tables : VipTables w
  calls : ∀ call ∈ w.calls, call.Knows w

section Keeps

variable {w w' : VipWorld} {call : VipCall} {reward : VipBenefitReward}

theorem VipWorld.LimitRead.keep (hkeep : VipKeeps w w') (h : w.LimitRead reward) :
    w'.LimitRead reward := by
  refine ⟨h.1.trans_le hkeep.nextId, fun r' hr' hid => ?_⟩
  obtain ⟨r, hr, hsame, hlimit⟩ := hkeep.rows r' hr' (hid ▸ h.1)
  rcases h.2 r hr (hsame.trans hid) with hread | hlowered
  · exact hlimit.imp_left hread.trans
  · exact .inr (hkeep.lowered _ (hsame ▸ hlowered))

theorem VipCall.Knows.keep (hkeep : VipKeeps w w') (h : call.Knows w) : call.Knows w' := by
  unfold VipCall.Knows at h ⊢
  cases hstage : call.stage <;> simp only [hstage] at h ⊢
  case rewardRead => exact h.keep hkeep
  case lowerRead => exact h.keep hkeep
  case checked reward existingCount =>
    obtain ⟨hread, hless, hcount⟩ := h
    refine ⟨hread.keep hkeep, hless, fun huser hrow => ?_⟩
    obtain ⟨r', hr', hid⟩ := hrow
    obtain ⟨r, hr, hsame, -⟩ := hkeep.rows r' hr' (hid ▸ hread.1)
    have hmore := hkeep.counts r' hr' call.userId huser
    rw [hid] at hmore
    exact (hcount (hkeep.users _ huser) ⟨r, hr, hsame.trans hid⟩).trans hmore

theorem VipInv.keep (h : VipInv w) (htables : VipTables w') (hkeep : VipKeeps w w')
    (hcalls : ∀ call ∈ w'.calls, call ∈ w.calls ∨ call.Knows w') : VipInv w' := by
  refine ⟨htables, fun call hcall => ?_⟩
  rcases hcalls call hcall with hold | hknows
  · exact (h.calls call hold).keep hkeep
  · exact hknows

theorem VipTables.frame (h : VipTables w) (hrewards : w'.rewards = w.rewards)
    (hclaims : w'.claims = w.claims) (hnextId : w'.nextId = w.nextId)
    (hlowered : w'.lowered = w.lowered) : VipTables w' := by
  have hof : w'.claimsOf = w.claimsOf := by
    unfold VipWorld.claimsOf
    rw [hclaims]
  have hcount : w'.claimCount = w.claimCount := by
    unfold VipWorld.claimCount
    rw [hof]
  constructor
  · rw [hnextId]
    exact h.nextId
  · rw [hrewards]
    exact h.ids
  · rw [hrewards, hnextId]
    exact h.rows
  · rw [hclaims, hnextId]
    exact h.claims
  · rw [hof, hcount]
    exact h.numbered
  · rw [hrewards, hcount, hlowered]
    exact h.limited

theorem VipKeeps.frame (hrewards : w'.rewards = w.rewards) (hclaims : w'.claims = w.claims)
    (hnextId : w'.nextId = w.nextId) (hlowered : w'.lowered = w.lowered)
    (husers : ∀ userId, (w'.users userId).isSome = true → (w.users userId).isSome = true) :
    VipKeeps w w' := by
  have hcount : w'.claimCount = w.claimCount := by
    unfold VipWorld.claimCount VipWorld.claimsOf
    rw [hclaims]
  refine ⟨hnextId.ge, fun id hid => hlowered ▸ hid, fun r' hr' _ => ?_, husers,
    fun r' _ userId _ => (congrFun (congrFun hcount userId) r'.id).ge⟩
  exact ⟨r', hrewards ▸ hr', rfl, .inl le_rfl⟩

end Keeps

section Events

variable {w w' : VipWorld} {call : VipCall} {reward existing : VipBenefitReward}
  {userId rewardId existingCount k : ℕ}

theorem claimCount_unused (h : VipTables w) (hid : w.nextId ≤ rewardId) :
    w.claimCount userId rewardId = 0 := by
  refine List.length_eq_zero_iff.mpr (List.filter_eq_nil_iff.mpr fun c hc hkey => ?_)
  rw [Bool.and_eq_true, beq_iff_eq, beq_iff_eq] at hkey
  exact absurd (h.claims c hc) (Nat.not_lt.mpr (hkey.2 ▸ hid))

theorem insertReward_tables (h : VipTables w) (hid : reward.id = w.nextId)
    (hvalid : reward.Valid) : VipTables (w.insertReward reward) := by
  have hmem : ∀ r ∈ (w.insertReward reward).rewards, r ∈ w.rewards ∨ r = reward := by
    intro r hr
    simpa using List.mem_append.mp hr
  have hold : ∀ r ∈ w.rewards, r.id < w.nextId := fun r hr => (h.rows r hr).2.1
  refine ⟨Nat.succ_pos _, ?_, fun r hr => ?_, fun c hc => ?_, h.numbered, fun r hr userId => ?_⟩
  · refine Keyed.nodup_append_singleton h.ids ?_
    intro r hr
    exact (hid ▸ hold r hr).ne
  · rcases hmem r hr with hr | rfl
    · obtain ⟨hpos, hless, hr⟩ := h.rows r hr
      exact ⟨hpos, hless.trans (Nat.lt_succ_self _), hr⟩
    · exact ⟨hid ▸ h.nextId, hid ▸ Nat.lt_succ_self _, hvalid⟩
  · exact (h.claims c hc).trans (Nat.lt_succ_self _)
  · rcases hmem r hr with hr | rfl
    · exact h.limited r hr userId
    · exact .inl ((claimCount_unused h hid.ge).trans_le (Nat.zero_le _))

theorem insertReward_keeps (hid : reward.id = w.nextId) : VipKeeps w (w.insertReward reward) := by
  refine ⟨Nat.le_succ _, fun _ => id, fun r hr hless => ?_, fun _ => id, fun _ _ _ _ => le_rfl⟩
  have hmem : r ∈ w.rewards ∨ r = reward := by simpa using List.mem_append.mp hr
  rcases hmem with hr | rfl
  · exact ⟨r, hr, rfl, .inl le_rfl⟩
  · exact absurd hid hless.ne

theorem mem_writeReward {r' : VipBenefitReward} (h : r' ∈ (w.writeReward reward).rewards) :
    ∃ r ∈ w.rewards, r.id = r'.id ∧ (r' = r ∨ r' = reward) ∧
      (r.claimLimit ≤ r'.claimLimit ∨ r'.id ∈ (w.writeReward reward).lowered) := by
  obtain ⟨r, hr, rfl⟩ := List.mem_map.mp h
  refine ⟨r, hr, ?_⟩
  by_cases hid : r.id = reward.id
  · rw [if_pos hid]
    refine ⟨hid, .inr rfl, ?_⟩
    rcases Nat.lt_or_ge reward.claimLimit r.claimLimit with hfell | hle
    · refine .inr (List.mem_append_right _ (List.mem_map.mpr ⟨r, ?_, hid⟩))
      simp [hr, hid, hfell]
    · exact .inl hle
  · rw [if_neg hid]
    exact ⟨rfl, .inl rfl, .inl le_rfl⟩

theorem writeReward_tables (h : VipTables w) (hvalid : reward.Valid) :
    VipTables (w.writeReward reward) := by
  refine ⟨h.nextId, ?_, fun r' hr' => ?_, h.claims, h.numbered, fun r' hr' userId => ?_⟩
  · have hids : (w.writeReward reward).rewards.map (·.id) = w.rewards.map (·.id) := by
      show (w.rewards.map _).map _ = _
      rw [List.map_map]
      refine List.map_congr_left fun r _ => ?_
      by_cases hid : r.id = reward.id
      · simp [hid]
      · simp [hid]
    rw [hids]
    exact h.ids
  · obtain ⟨r, hr, hid, hsame, -⟩ := mem_writeReward hr'
    obtain ⟨hpos, hless, hr⟩ := h.rows r hr
    refine ⟨hid ▸ hpos, hid ▸ hless, ?_⟩
    rcases hsame with rfl | rfl
    · exact hr
    · exact hvalid
  · obtain ⟨r, hr, hid, -, hlimit⟩ := mem_writeReward hr'
    rcases h.limited r hr userId with hcount | hlowered
    · exact hlimit.imp_left (hid ▸ hcount).trans
    · exact .inr (List.mem_append_left _ (hid ▸ hlowered))

theorem writeReward_keeps : VipKeeps w (w.writeReward reward) := by
  refine ⟨le_rfl, fun _ => List.mem_append_left _, fun r' hr' _ => ?_, fun _ => id,
    fun _ _ _ _ => le_rfl⟩
  obtain ⟨r, hr, hid, -, hlimit⟩ := mem_writeReward hr'
  exact ⟨r, hr, hid, hlimit⟩

theorem deleteReward_claimsOf (id : ℕ) : (w.deleteReward id).claimsOf userId rewardId =
    if rewardId = id then [] else w.claimsOf userId rewardId := by
  show (w.claims.filter _).filter _ = _
  rw [List.filter_filter]
  split_ifs with hid
  · refine List.filter_eq_nil_iff.mpr fun c _ => ?_
    simp only [Bool.and_eq_true, beq_iff_eq, bne_iff_ne]
    exact fun hc => hc.2 (hc.1.2.trans hid)
  · refine List.filter_congr fun c _ => ?_
    by_cases hkey : c.rewardId = rewardId
    · simp [hkey, hid]
    · simp [hkey]

theorem deleteUser_claimsOf (deleted : ℕ) : (w.deleteUser deleted).claimsOf userId rewardId =
    if userId = deleted then [] else w.claimsOf userId rewardId := by
  show (w.claims.filter _).filter _ = _
  rw [List.filter_filter]
  split_ifs with hid
  · refine List.filter_eq_nil_iff.mpr fun c _ => ?_
    simp only [Bool.and_eq_true, beq_iff_eq, bne_iff_ne]
    exact fun hc => hc.2 (hc.1.1.trans hid)
  · refine List.filter_congr fun c _ => ?_
    by_cases hkey : c.userId = userId
    · simp [hkey, hid]
    · simp [hkey]

/-- Rows are deleted, and claims of a user and a reward only together. -/
theorem VipTables.prune (h : VipTables w) (hrewards : w'.rewards.Sublist w.rewards)
    (hnextId : w'.nextId = w.nextId) (hlowered : w'.lowered = w.lowered)
    (hclaims : ∀ c ∈ w'.claims, c ∈ w.claims)
    (hof : ∀ userId rewardId, w'.claimsOf userId rewardId = [] ∨
      w'.claimsOf userId rewardId = w.claimsOf userId rewardId) : VipTables w' := by
  refine ⟨hnextId ▸ h.nextId, h.ids.sublist (hrewards.map _), fun r hr => ?_, fun c hc => ?_,
    fun userId rewardId => ?_, fun r hr userId => ?_⟩
  · exact hnextId ▸ h.rows r (hrewards.subset hr)
  · exact hnextId ▸ h.claims c (hclaims c hc)
  · unfold VipWorld.claimCount
    rcases hof userId rewardId with hnil | hsame
    · rw [hnil]
      rfl
    · rw [hsame]
      exact h.numbered userId rewardId
  · rw [hlowered]
    unfold VipWorld.claimCount
    rcases hof userId r.id with hnil | hsame
    · rw [hnil]
      exact .inl (Nat.zero_le _)
    · rw [hsame]
      exact h.limited r (hrewards.subset hr) userId

theorem deleteReward_tables (h : VipTables w) (id : ℕ) : VipTables (w.deleteReward id) := by
  refine h.prune List.filter_sublist rfl rfl (fun c hc => (List.mem_filter.mp hc).1)
    fun userId rewardId => ?_
  rw [deleteReward_claimsOf]
  split_ifs
  · exact .inl rfl
  · exact .inr rfl

theorem deleteReward_keeps (id : ℕ) : VipKeeps w (w.deleteReward id) := by
  refine ⟨le_rfl, fun _ h => h, fun r hr _ => ?_, fun _ h => h, fun r hr userId _ => ?_⟩
  · exact ⟨r, (List.mem_filter.mp hr).1, rfl, .inl le_rfl⟩
  · have hother : r.id ≠ id := by simpa using (List.mem_filter.mp hr).2
    unfold VipWorld.claimCount
    rw [deleteReward_claimsOf, if_neg hother]

theorem deleteUser_tables (h : VipTables w) (deleted : ℕ) : VipTables (w.deleteUser deleted) := by
  refine h.prune (List.Sublist.refl _) rfl rfl (fun c hc => (List.mem_filter.mp hc).1)
    fun userId rewardId => ?_
  rw [deleteUser_claimsOf]
  split_ifs
  · exact .inl rfl
  · exact .inr rfl

theorem deleteUser_there (deleted : ℕ)
    (h : ((w.deleteUser deleted).users userId).isSome = true) :
    userId ≠ deleted ∧ (w.users userId).isSome = true := by
  have hrow : (w.deleteUser deleted).users userId =
      Function.update w.users deleted none userId := rfl
  rw [hrow] at h
  by_cases hsame : userId = deleted
  · rw [hsame, Function.update_self] at h
    cases h
  · rw [Function.update_of_ne hsame] at h
    exact ⟨hsame, h⟩

theorem deleteUser_keeps (deleted : ℕ) : VipKeeps w (w.deleteUser deleted) := by
  refine ⟨le_rfl, fun _ h => h, fun r hr _ => ⟨r, hr, rfl, .inl le_rfl⟩,
    fun userId h => (deleteUser_there deleted h).2, fun r _ userId h => ?_⟩
  unfold VipWorld.claimCount
  rw [deleteUser_claimsOf, if_neg (deleteUser_there deleted h).1]

theorem createClaim_spec (h : w.createClaim userId reward existingCount = .ok w') :
    (∃ r ∈ w.rewards, r.id = reward.id) ∧ (w.users userId).isSome = true ∧
      ¬(w.claimsOf userId reward.id).any (·.claimNo == existingCount + 1) = true ∧
      ∃ c user', c.userId = userId ∧ c.rewardId = reward.id ∧ c.claimNo = existingCount + 1 ∧
        w' = { w with
          claims := w.claims ++ [c], users := Function.update w.users userId (some user') } := by
  unfold VipWorld.createClaim at h
  cases hrow : w.rewards.any (·.id == reward.id) with
  | false => rw [hrow] at h; cases h
  | true =>
    obtain ⟨r, hr, hid⟩ := List.any_eq_true.mp hrow
    cases htaken : (w.claimsOf userId reward.id).any (·.claimNo == existingCount + 1) with
    | true => rw [hrow, htaken] at h; cases h
    | false =>
      cases huser : w.users userId with
      | none => rw [hrow, htaken, huser] at h; cases h
      | some user =>
        cases hpaid : VipWorld.payReward reward user with
        | error error => simp [hrow, htaken, huser, hpaid] at h
        | ok user' =>
          simp only [hrow, htaken, huser, hpaid] at h
          refine ⟨⟨r, hr, by simpa using hid⟩, rfl, Bool.false_ne_true,
            ⟨userId, reward.id, reward.level, existingCount + 1, reward.type != .ofInstance⟩,
            user', rfl, rfl, rfl, ?_⟩
          exact (Except.ok.inj h).symm

theorem claimsOf_append {c : VipBenefitClaim} (hclaims : w'.claims = w.claims ++ [c]) :
    w'.claimsOf userId rewardId = w.claimsOf userId rewardId ++
      if c.userId = userId ∧ c.rewardId = rewardId then [c] else [] := by
  unfold VipWorld.claimsOf
  rw [hclaims, List.filter_append]
  by_cases hkey : c.userId = userId ∧ c.rewardId = rewardId
  · simp [hkey]
  · simp [hkey]

/-- A claim that commits takes the next number. -/
theorem createClaim_tables (h : VipTables w)
    (hknows : VipCall.Knows ⟨userId, rewardId, .checked reward existingCount⟩ w)
    (hclaim : w.createClaim userId reward existingCount = .ok w') :
    VipTables w' ∧ VipKeeps w w' := by
  obtain ⟨hrow, huser, hfree, c, user', rfl, hreward, hclaimNo, hw'⟩ := createClaim_spec hclaim
  obtain ⟨⟨hid, hread⟩, hless, hcount⟩ := hknows
  have hexact : w.claimCount c.userId reward.id = existingCount :=
    Nat.le_antisymm (Nat.not_lt.mp fun hmore => hfree ((VipWorld.next_claimNo_free h).mpr hmore))
      (hcount huser hrow)
  have hclaims : w'.claims = w.claims ++ [c] := by rw [hw']
  have hrewards : w'.rewards = w.rewards := by rw [hw']
  have hnextId : w'.nextId = w.nextId := by rw [hw']
  have hlowered : w'.lowered = w.lowered := by rw [hw']
  have hof : ∀ u r, w'.claimsOf u r = w.claimsOf u r ++
      if c.userId = u ∧ c.rewardId = r then [c] else [] := fun u r => claimsOf_append hclaims
  constructor
  · refine ⟨hnextId ▸ h.nextId, hrewards ▸ h.ids, ?_, fun c' hc' => ?_, fun u r => ?_,
      fun r hr u => ?_⟩
    · rw [hrewards, hnextId]
      exact h.rows
    · rw [hclaims] at hc'
      rw [hnextId]
      rcases List.mem_append.mp hc' with hc' | hc'
      · exact h.claims c' hc'
      · obtain rfl := List.mem_singleton.mp hc'
        exact hreward ▸ hid
    · rw [VipWorld.claimCount, hof]
      split_ifs with hkey
      · obtain ⟨rfl, rfl⟩ := hkey
        have hnumber : [c].map (·.claimNo) = [w.claimCount c.userId c.rewardId + 1] := by
          rw [hreward, hexact, ← hclaimNo]
          rfl
        rw [List.map_append, h.numbered, hnumber, List.length_append, List.length_singleton,
          List.range_succ, List.map_append]
        rfl
      · rw [List.append_nil]
        exact h.numbered u r
    · rw [hrewards] at hr
      rw [VipWorld.claimCount, hof, hlowered]
      split_ifs with hkey
      · obtain ⟨rfl, hsame⟩ := hkey
        refine (hread r hr (hsame.symm.trans hreward)).imp_left fun hlimit => ?_
        rw [List.length_append, ← hsame, hreward]
        exact (Nat.succ_le_of_lt (hexact.trans_lt hless)).trans hlimit
      · rw [List.append_nil]
        exact h.limited r hr u
  · refine ⟨hnextId.ge, fun id hid => hlowered ▸ hid,
      fun r hr _ => ⟨r, hrewards ▸ hr, rfl, .inl le_rfl⟩, fun u hu => ?_, fun r _ u _ => ?_⟩
    · rw [hw'] at hu
      have hupdated : (Function.update w.users c.userId (some user') u).isSome = true := hu
      by_cases hsame : u = c.userId
      · exact hsame ▸ huser
      · rwa [Function.update_of_ne hsame] at hupdated
    · rw [VipWorld.claimCount, VipWorld.claimCount, hof, List.length_append]
      exact Nat.le_add_right _ _

/-- What the next statement of a call is: it learns something, or it commits. -/
theorem statement_spec (h : VipTables w) (hknows : call.Knows w)
    (hstep : w.statement k call = some w') :
    (∃ stage, w' = w.setStage k call stage ∧ ({ call with stage } : VipCall).Knows w) ∨
      ∃ reward existingCount w'', call.stage = .checked reward existingCount ∧
        w.createClaim call.userId reward existingCount = .ok w'' ∧
        w' = w''.setStage k call (.done none) := by
  unfold VipCall.Knows at hknows
  unfold VipWorld.statement at hstep
  cases hstage : call.stage <;> simp only [hstage] at hstep hknows
  case started =>
    split_ifs at hstep
    · exact .inl ⟨_, (Option.some.inj hstep).symm, trivial⟩
    · exact .inl ⟨_, (Option.some.inj hstep).symm, trivial⟩
  case levelRead vipLevel =>
    cases hfind : w.findReward call.rewardId with
    | none =>
      rw [hfind] at hstep
      exact .inl ⟨_, (Option.some.inj hstep).symm, trivial⟩
    | some reward =>
      simp only [hfind] at hstep
      split_ifs at hstep
      · exact .inl ⟨_, (Option.some.inj hstep).symm, trivial⟩
      · obtain ⟨hmem, -⟩ := (VipWorld.findReward_eq_some h).mp hfind
        refine .inl ⟨_, (Option.some.inj hstep).symm, (h.rows reward hmem).2.1, fun r hr hid => ?_⟩
        obtain rfl : r = reward := List.inj_on_of_nodup_map h.ids hr hmem hid
        exact .inl le_rfl
  case rewardRead vipLevel reward =>
    exact .inl ⟨_, (Option.some.inj hstep).symm, hknows⟩
  case lowerRead reward lowerRewards =>
    cases hcheck : VipWorld.checkClaims reward lowerRewards (w.claimCount call.userId) with
    | error error =>
      rw [hcheck] at hstep
      exact .inl ⟨_, (Option.some.inj hstep).symm, trivial⟩
    | ok existingCount =>
      rw [hcheck] at hstep
      obtain ⟨-, hless, rfl⟩ := VipWorld.checkClaims_eq_ok.mp hcheck
      exact .inl ⟨_, (Option.some.inj hstep).symm, hknows, hless, fun _ _ => le_rfl⟩
  case checked reward existingCount =>
    cases hclaim : w.createClaim call.userId reward existingCount with
    | error error =>
      rw [hclaim] at hstep
      exact .inl ⟨_, (Option.some.inj hstep).symm, trivial⟩
    | ok w'' =>
      rw [hclaim] at hstep
      exact .inr ⟨reward, existingCount, w'', rfl, hclaim, (Option.some.inj hstep).symm⟩
  case done => cases hstep

/-- A call moves on. -/
theorem VipInv.setStage (h : VipInv w) {stage : VipStage}
    (hknows : ({ call with stage } : VipCall).Knows w) : VipInv (w.setStage k call stage) := by
  have htables : VipTables (w.setStage k call stage) := h.tables.frame rfl rfl rfl rfl
  have hkeep : VipKeeps w (w.setStage k call stage) := .frame rfl rfl rfl rfl fun _ h => h
  refine h.keep htables hkeep fun call' hcall' => ?_
  rcases List.mem_or_eq_of_mem_set hcall' with hold | rfl
  · exact .inl hold
  · exact .inr (hknows.keep hkeep)

theorem vipStep_inv {event : VipEvent} (h : VipInv w) (hstep : vipStep w event = some w') :
    VipInv w' := by
  cases event <;> simp only [vipStep] at hstep
  case createVipBenefitReward input planActive =>
    cases hdata : normalizeRewardData w.nextId input planActive none with
    | error error => rw [hdata] at hstep; cases hstep
    | ok reward =>
      rw [hdata] at hstep
      obtain rfl := Option.some.inj hstep
      obtain ⟨hid, hvalid⟩ := normalizeRewardData_spec hdata
      exact h.keep (insertReward_tables h.tables hid hvalid) (insertReward_keeps hid)
        fun call => .inl
  case readForUpdate id =>
    cases hfind : w.rewards.find? (·.id == id) with
    | none => rw [hfind] at hstep; cases hstep
    | some existing =>
      rw [hfind] at hstep
      obtain rfl := Option.some.inj hstep
      exact h.keep (h.tables.frame rfl rfl rfl rfl) (.frame rfl rfl rfl rfl fun _ h => h)
        fun call => .inl
  case updateVipBenefitReward existing input planActive =>
    split_ifs at hstep
    cases hdata : normalizeRewardData existing.id input planActive (some existing) with
    | error error => rw [hdata] at hstep; cases hstep
    | ok reward =>
      rw [hdata] at hstep
      obtain rfl := Option.some.inj hstep
      obtain ⟨-, hvalid⟩ := normalizeRewardData_spec hdata
      exact h.keep (writeReward_tables h.tables hvalid) writeReward_keeps fun call => .inl
  case deleteVipBenefitReward id =>
    obtain rfl := Option.some.inj hstep
    exact h.keep (deleteReward_tables h.tables id) (deleteReward_keeps id) fun call => .inl
  case setLevel userId level =>
    obtain rfl := Option.some.inj hstep
    exact h.keep (h.tables.frame rfl rfl rfl rfl) (.frame rfl rfl rfl rfl fun _ h => h)
      fun call => .inl
  case setUser userId user =>
    split_ifs at hstep with huser
    obtain rfl := Option.some.inj hstep
    refine h.keep (h.tables.frame rfl rfl rfl rfl) (.frame rfl rfl rfl rfl fun u hu => ?_)
      fun call => .inl
    have hupdated : (Function.update w.users userId (some user) u).isSome = true := hu
    by_cases hsame : u = userId
    · exact hsame ▸ huser
    · rwa [Function.update_of_ne hsame] at hupdated
  case deleteUser userId =>
    obtain rfl := Option.some.inj hstep
    exact h.keep (deleteUser_tables h.tables userId) (deleteUser_keeps userId) fun call => .inl
  case claim userId rewardId =>
    obtain rfl := Option.some.inj hstep
    refine h.keep (h.tables.frame rfl rfl rfl rfl) (.frame rfl rfl rfl rfl fun _ h => h)
      fun call hcall => ?_
    rcases List.mem_append.mp hcall with hold | hnew
    · exact .inl hold
    · obtain rfl := List.mem_singleton.mp hnew
      exact .inr trivial
  case statement k =>
    cases hcall : w.calls[k]? with
    | none => rw [hcall] at hstep; cases hstep
    | some call =>
      rw [hcall] at hstep
      have hknows := h.calls call (List.mem_of_getElem? hcall)
      rcases statement_spec h.tables hknows hstep with ⟨stage, rfl, hnext⟩ |
        ⟨reward, existingCount, w'', hstage, hclaim, rfl⟩
      · exact h.setStage hnext
      · have hchecked : VipCall.Knows
            ⟨call.userId, call.rewardId, .checked reward existingCount⟩ w := hstage ▸ hknows
        obtain ⟨htables, hkeep⟩ := createClaim_tables h.tables hchecked hclaim
        obtain ⟨-, -, -, c, user', -, -, -, hw''⟩ := createClaim_spec hclaim
        have hcalls : w''.calls = w.calls := by rw [hw'']
        have hinv : VipInv w'' := h.keep htables hkeep fun call hcall => .inl (hcalls ▸ hcall)
        exact hinv.setStage trivial
  case crash k =>
    cases hcall : w.calls[k]? with
    | none => rw [hcall] at hstep; cases hstep
    | some call =>
      simp only [hcall] at hstep
      cases hstage : call.stage <;> simp only [hstage] at hstep
      case done => cases hstep
      all_goals
        obtain rfl := Option.some.inj hstep
        exact h.setStage trivial

end Events

/-! ## A claim with nothing in between -/

/-- The next statements of a call lead from `w` to `w'`. -/
def RunsAlone (k : ℕ) (w w' : VipWorld) : Prop :=
  ∃ n, Machine.exec vipStep w (List.replicate n (.statement k)) = some w'

section Alone

variable {w w' : VipWorld} {call : VipCall} {k : ℕ} {stage stage' : VipStage}

theorem RunsAlone.refl : RunsAlone k w w := ⟨0, rfl⟩

theorem RunsAlone.step {target : VipWorld} (hcall : w.calls[k]? = some call)
    (hstep : w.statement k call = some w') (h : RunsAlone k w' target) : RunsAlone k w target := by
  obtain ⟨n, hn⟩ := h
  refine ⟨n + 1, ?_⟩
  have hfirst : vipStep w (.statement k) = some w' := by
    simp only [vipStep, hcall, hstep]
  simp only [List.replicate_succ, Machine.exec, hfirst, hn]

theorem setStage_calls {call' : VipCall} (hcall : w.calls[k]? = some call') :
    (w.setStage k call stage).calls[k]? = some { call with stage } := by
  obtain ⟨hk, -⟩ := List.getElem?_eq_some_iff.mp hcall
  exact List.getElem?_set_self hk

theorem setStage_setStage : (w.setStage k call stage).setStage k { call with stage } stage' =
    w.setStage k call stage' := by
  simp [VipWorld.setStage, List.set_set]

theorem createClaim_setStage (userId : ℕ) (reward : VipBenefitReward) (existingCount : ℕ) :
    (w.setStage k call stage).createClaim userId reward existingCount =
      (w.createClaim userId reward existingCount).map (·.setStage k call stage) := by
  cases hrow : w.rewards.any (·.id == reward.id) with
  | false => simp [VipWorld.createClaim, VipWorld.setStage, hrow, Except.map]
  | true =>
    cases htaken : (w.claimsOf userId reward.id).any (·.claimNo == existingCount + 1) with
    | true =>
      simp only [VipWorld.claimsOf] at htaken
      simp [VipWorld.createClaim, VipWorld.setStage, VipWorld.claimsOf, hrow, htaken, Except.map]
    | false =>
      simp only [VipWorld.claimsOf] at htaken
      cases huser : w.users userId with
      | none => simp [VipWorld.createClaim, VipWorld.setStage, VipWorld.claimsOf, hrow, htaken,
          huser, Except.map]
      | some user =>
        cases hpaid : VipWorld.payReward reward user with
        | error error => simp [VipWorld.createClaim, VipWorld.setStage, VipWorld.claimsOf, hrow,
            htaken, huser, hpaid, Except.map]
        | ok user' => simp [VipWorld.createClaim, VipWorld.setStage, VipWorld.claimsOf, hrow,
            htaken, huser, hpaid, Except.map]

/-- The statements of a call, one after the other, are `claimVipBenefitReward`. -/
theorem claim_alone (hcall : w.calls[k]? = some call) (hstage : call.stage = .started) :
    RunsAlone k w (match w.claimVipBenefitReward call.userId call.rewardId with
      | .error error => w.setStage k call (.done (some error))
      | .ok w' => w'.setStage k call (.done none)) := by
  have hnext : ∀ stage, (w.setStage k call stage).calls[k]? = some { call with stage } :=
    fun stage => setStage_calls hcall
  unfold VipWorld.claimVipBenefitReward
  by_cases hid : call.rewardId = 0
  · simp only [if_pos hid]
    refine .step hcall ?_ .refl
    simp only [VipWorld.statement, hstage, if_pos hid]
  simp only [if_neg hid]
  have hlevel : w.statement k call =
      some (w.setStage k call (.levelRead (w.levels call.userId))) := by
    simp only [VipWorld.statement, hstage, if_neg hid]
  refine .step hcall hlevel ?_
  cases hfind : w.findReward call.rewardId with
  | none =>
    refine .step (hnext _) ?_ .refl
    have hfind' : (w.setStage k call (.levelRead (w.levels call.userId))).findReward
        call.rewardId = none := hfind
    simp only [VipWorld.statement, hfind', setStage_setStage]
  | some reward =>
    have hfind' : (w.setStage k call (.levelRead (w.levels call.userId))).findReward
        call.rewardId = some reward := hfind
    by_cases hbelow : w.levels call.userId < reward.level
    · simp only [if_pos hbelow]
      refine .step (hnext _) ?_ .refl
      simp only [VipWorld.statement, hfind', if_pos hbelow, setStage_setStage]
    simp only [if_neg hbelow]
    have hreward : (w.setStage k call (.levelRead (w.levels call.userId))).statement k
        { call with stage := .levelRead (w.levels call.userId) } =
        some (w.setStage k call (.rewardRead (w.levels call.userId) reward)) := by
      simp only [VipWorld.statement, hfind', if_neg hbelow, setStage_setStage]
    refine .step (hnext _) hreward (.step (hnext _) (congrArg some setStage_setStage) ?_)
    have hlower : (w.setStage k call (.rewardRead (w.levels call.userId) reward)).lowerRewards
        reward (w.levels call.userId) = w.lowerRewards reward (w.levels call.userId) := rfl
    rw [hlower]
    generalize w.lowerRewards reward (w.levels call.userId) = lowerRewards
    cases hcheck : VipWorld.checkClaims reward lowerRewards (w.claimCount call.userId) with
    | error error =>
      have hcheck' : VipWorld.checkClaims reward lowerRewards
          ((w.setStage k call (.lowerRead reward lowerRewards)).claimCount call.userId) =
          .error error := hcheck
      refine .step (hnext _) ?_ .refl
      simp only [VipWorld.statement, hcheck', setStage_setStage]
    | ok existingCount =>
      have hcheck' : VipWorld.checkClaims reward lowerRewards
          ((w.setStage k call (.lowerRead reward lowerRewards)).claimCount call.userId) =
          .ok existingCount := hcheck
      have hchecked : (w.setStage k call (.lowerRead reward lowerRewards)).statement k
          { call with stage := .lowerRead reward lowerRewards } =
          some (w.setStage k call (.checked reward existingCount)) := by
        simp only [VipWorld.statement, hcheck', setStage_setStage]
      refine .step (hnext _) hchecked (.step (hnext _) ?_ .refl)
      cases hclaim : w.createClaim call.userId reward existingCount with
      | error error =>
        simp only [VipWorld.statement, createClaim_setStage, hclaim, Except.map,
          setStage_setStage]
      | ok w' =>
        simp only [VipWorld.statement, createClaim_setStage, hclaim, Except.map,
          setStage_setStage]

end Alone

/-- No reward is there yet, and no call. -/
def VipWorld.initial (users : ℕ → Option VipUser) (levels : ℕ → ℕ) : VipWorld :=
  { users, levels }

theorem VipInv.initial (users : ℕ → Option VipUser) (levels : ℕ → ℕ) :
    VipInv (.initial users levels) where
  tables := by
    refine ⟨Nat.zero_lt_one, List.nodup_nil, fun r hr => ?_, fun c hc => ?_, fun _ _ => rfl,
      fun r hr => ?_⟩
    · exact absurd hr List.not_mem_nil
    · exact absurd hc List.not_mem_nil
    · exact absurd hr List.not_mem_nil
  calls := fun call hcall => absurd hcall List.not_mem_nil

/-- In every state the overview and the claims agree, and the claims are in order. -/
theorem vip_records_sound {users : ℕ → Option VipUser} {levels : ℕ → ℕ} {w : VipWorld}
    (h : Machine.Reach vipStep Machine.free (.initial users levels) w) : VipRecordsSound w := by
  have hinv : VipInv w :=
    h.invariant (.initial users levels) fun hinv _ hstep => vipStep_inv hinv hstep
  exact hinv.tables.sound

/-- A call that has just begun. -/
def oneCall : VipWorld :=
  { VipWorld.initial (fun _ => some {}) fun _ => 1 with
    rewards := [⟨1, 1, .points, 2, 0, true, 5⟩]
    calls := [⟨7, 1, .started⟩] }

theorem claim_alone_first : ∃ w, RunsAlone 0 oneCall w ∧ w.claimCount 7 1 = 1 :=
  ⟨_, claim_alone rfl rfl, by decide +kernel⟩

/-- Two claims of one user race for the first of two; the second of them conflicts. -/
theorem vip_records_sound_race : ∃ w,
    Machine.Reach vipStep Machine.free (.initial (fun _ => some {}) fun _ => 1) w ∧
      (w.claims.map (·.claimNo) = [1] ∧
        w.calls.map (·.stage matches .done none) = [true, false]) ∧ VipRecordsSound w := by
  have h : (Machine.exec vipStep (.initial (fun _ => some {}) fun _ => 1)
      ([.createVipBenefitReward
          { level := some 1
            type := some .points
            claimLimit := some 2
            config := some (some 5) } false,
        .claim 7 1, .claim 7 1] ++
        [0, 0, 0, 0, 1, 1, 1, 1, 0, 1].map .statement)).map
      (fun w => (w.claims.map (·.claimNo), w.calls.map (·.stage matches .done none))) =
      some ([1], [true, false]) := by
    decide +kernel
  obtain ⟨w, hexec, hw⟩ := Option.map_eq_some_iff.mp h
  have hreach := Machine.reach_of_exec hexec
  exact ⟨w, hreach, Prod.mk.inj hw, vip_records_sound hreach⟩

/-- A limit of two is used up, and then lowered to one. -/
theorem claims_above_limit : ∃ w,
    Machine.Reach vipStep Machine.free (.initial (fun _ => some {}) fun _ => 1) w ∧
      ∃ reward ∈ w.rewards, reward.claimLimit < w.claimCount 7 reward.id := by
  have h : (Machine.exec vipStep (.initial (fun _ => some {}) fun _ => 1)
      ([.createVipBenefitReward
          { level := some 1
            type := some .points
            claimLimit := some 2
            config := some (some 5) } false,
        .claim 7 1, .claim 7 1] ++ [0, 0, 0, 0, 0, 1, 1, 1, 1, 1].map .statement ++
        [.readForUpdate 1,
         .updateVipBenefitReward ⟨1, 1, .points, 2, 0, true, 5⟩ { claimLimit := some 1 } false])).map
      (fun w => w.rewards.map fun reward => (reward.claimLimit, w.claimCount 7 reward.id)) =
      some [(1, 2)] := by
    decide +kernel
  obtain ⟨w, hexec, hw⟩ := Option.map_eq_some_iff.mp h
  have hin : (1, 2) ∈ w.rewards.map fun reward => (reward.claimLimit, w.claimCount 7 reward.id) :=
    hw ▸ List.mem_singleton.mpr rfl
  obtain ⟨reward, hreward, hpair⟩ := List.mem_map.mp hin
  obtain ⟨hlimit, hcount⟩ := Prod.mk.inj hpair
  refine ⟨w, Machine.reach_of_exec hexec, reward, hreward, ?_⟩
  rw [hlimit, hcount]
  exact Nat.lt_succ_self 1

end Incudal
