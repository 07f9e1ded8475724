/-
# `LotteryDraws` — draws that contend for points and prizes

`performDraw` is one transaction at the level repeatable read: it reads lottery,
points and prizes from its snapshot, takes the points, selects a prize, takes
one from its stock, hands it out and writes a record.  If a row that it writes
has been written since, the transaction is aborted; so the plan that a draw
makes of its snapshot holds of the rows as they are when it commits.

A draw returns a failure or throws and changes neither points nor stocks nor
records nor logs, or it takes the cost once, writes one record and takes one
from the stock of the prize (`lottery_draws_kept`).  The prize of type `nothing`
is what a draw falls back to: it is handed out also when it has a stock and the
stock is used up.  Every other limited prize is handed out at most as often as
there were pieces of it.
-/
import Incudal.Lottery
import Incudal.Points
import Incudal.Lib.Keyed
import Incudal.Lib.Machine
import Incudal.Lib.Snapshot

namespace Incudal

/-! ## Rows -/

structure Lottery where
  name : String
  costPoints : ℤ
  isActive : Bool := true
  startAt : Option Time := none
  endAt : Option Time := none
deriving DecidableEq, Repr

/-- `LotteryRecordStatus`. -/
inductive LotteryRecordStatus
  | pending | delivered
deriving DecidableEq, Repr

structure LotteryRecord where
  id : ℕ
  lotteryId : ℕ
  prizeId : ℕ
  userId : ℕ
  prizeType : LotteryPrizeType
  prizeValue : ℕ
  prizeName : String
  status : LotteryRecordStatus
  pointsSpent : ℤ
  deliveredAt : Option Time
deriving DecidableEq, Repr

/-- A row of `points_logs`. -/
structure DrawPointsLog where
  userId : ℕ
  type : PointsLogType
  amount : ℤ
  pointsBefore : ℤ
  pointsAfter : ℤ
  relatedId : Option ℕ
  remark : String
deriving DecidableEq, Repr

/-- A balance log of type `gift`. -/
structure GiftLog where
  userId : ℕ
  amount : Units
  balanceBefore : Units
  balanceAfter : Units
  remark : String
deriving DecidableEq, Repr

structure UserResourcePool where
  cpu : ℕ := 0
  memory : ℕ := 0
  disk : ℕ := 0
  traffic : ℕ := 0
deriving DecidableEq, Repr

structure ResourcePoolLog where
  userId : ℕ
  resourceType : Char
  amount : ℕ
  remark : String
deriving DecidableEq, Repr

structure Badge where
  id : String
  fullLabel : String
deriving DecidableEq, Repr

structure UserBadgeOwnership where
  userId : ℕ
  badgeId : String
deriving DecidableEq, Repr

structure LotteryDb where
  lotteries : ℕ → Option Lottery := fun _ => none
  prizes : List LotteryPrize := []
  userPoints : ℕ → Option UserPoints := fun _ => none
  /-- the balances of the users there are -/
  balances : ℕ → Option Units := fun _ => none
  pools : ℕ → Option UserResourcePool := fun _ => none
  records : List LotteryRecord := []
  pointsLogs : List DrawPointsLog := []
  giftLogs : List GiftLog := []
  poolLogs : List ResourcePoolLog := []
  ownerships : List UserBadgeOwnership := []

/-- The rows that a draw may write. -/
inductive DrawRow
  | points (userId : ℕ)
  | prize (id : ℕ)
  | user (id : ℕ)
  | pool (userId : ℕ)
deriving DecidableEq, Repr

def DrawRow.Value : DrawRow → Type
  | .points _ => Option UserPoints
  | .prize _ => Option LotteryPrize
  | .user _ => Option Units
  | .pool _ => Option UserResourcePool

def LotteryDb.read (db : LotteryDb) : (row : DrawRow) → row.Value
  | .points userId => db.userPoints userId
  | .prize id => Keyed.lookup LotteryPrize.id id db.prizes
  | .user id => db.balances id
  | .pool userId => db.pools userId

/-! ## What a draw plans -/

/-- What a draw is called with, the instant and the two random choices: the draw in percent and
the badge that `selectRandomBadgeOrThrow` picks, if there is one. -/
structure DrawInput where
  userId : ℕ
  lotteryId : ℕ
  now : Time
  random : ℚ≥0
  badge : Option Badge := none
deriving DecidableEq

/-- How a draw ends that throws nothing. -/
inductive DrawPlan
  /-- nothing is taken; the row of the points may have been created -/
  | refused (message : String) (createsPoints : Bool)
  /-- the points are taken and nothing is handed out -/
  | unpaid (lottery : Lottery) (message : String)
  | won (lottery : Lottery) (userPoints : UserPoints) (prize : LotteryPrize) (takesStock : Bool)
deriving DecidableEq

/-- A badge prize needs a badge. -/
def withBadge (input : DrawInput) (lottery : Lottery) (userPoints : UserPoints)
    (prize : LotteryPrize) (takesStock : Bool) : Except String DrawPlan :=
  if prize.type = .badge ∧ input.badge = none then .error "NO_BADGES_AVAILABLE"
  else .ok (.won lottery userPoints prize takesStock)

/-- `performDraw` up to the writes, on its snapshot. -/
def planDraw (db : LotteryDb) (input : DrawInput) : Except String DrawPlan :=
  match db.lotteries input.lotteryId with
  | none => .ok (.refused "抽奖活动不存在" false)
  | some lottery =>
      let prizes := db.prizes.filter fun prize => decide (prize.lotteryId = input.lotteryId)
      let userPoints := (db.userPoints input.userId).getD {}
      if !lottery.isActive then .ok (.refused "抽奖活动已关闭" false)
      else if lottery.startAt.any (input.now < ·) then .ok (.refused "抽奖活动尚未开始" false)
      else if lottery.endAt.any (· < input.now) then .ok (.refused "抽奖活动已结束" false)
      else if prizes.isEmpty then .ok (.refused "奖池为空" false)
      else if userPoints.points < lottery.costPoints then .ok (.refused "积分不足" true)
      else
        match weightedRandomSelect prizes input.random with
        | .error message => .error message
        | .ok selectedPrize =>
            match prizes.find? fun prize => decide (prize.id = selectedPrize.id) with
            | none => .error "Cannot read properties of undefined"
            | some prize =>
                if prize.remainQuantity = none then
                  withBadge input lottery userPoints prize false
                -- `updateMany` where `remainQuantity > 0`
                else if prize.inStock then withBadge input lottery userPoints prize true
                else
                  match nothingPrize prizes with
                  | some nothingPrize => withBadge input lottery userPoints nothingPrize false
                  | none => .ok (.unpaid lottery "奖品库存不足，请稍后再试")

/-! ## What it writes -/

/-- The letter of a resource in the logs of the pool. -/
def LotteryPrizeType.resourceType : LotteryPrizeType → Option Char
  | .cpu => some 'c'
  | .memory => some 'r'
  | .disk => some 'd'
  | .traffic => some 't'
  | _ => none

def UserResourcePool.add (pool : UserResourcePool) (type : LotteryPrizeType) (value : ℕ) :
    UserResourcePool :=
  match type with
  | .cpu => { pool with cpu := pool.cpu + value }
  | .memory => { pool with memory := pool.memory + value }
  | .disk => { pool with disk := pool.disk + value }
  | .traffic => { pool with traffic := pool.traffic + value }
  | _ => pool

/-- The points that a prize is worth. -/
def LotteryPrize.points (prize : LotteryPrize) : ℤ :=
  if prize.type = .points then prize.value else 0

/-- `resolvedPrizeName`. -/
def LotteryPrize.resolvedName (prize : LotteryPrize) (badge : Option Badge) : String :=
  match prize.type, badge with
  | .badge, some badge => badge.fullLabel
  | _, _ => prize.name

/-- `resolvedPrizeValue`. -/
def LotteryPrize.resolvedValue (prize : LotteryPrize) : ℕ :=
  if prize.type = .badge then 0 else prize.value

def UserPoints.spend (userPoints : UserPoints) (costPoints : ℤ) : UserPoints :=
  { userPoints with
      points := userPoints.points - costPoints
      totalSpent := userPoints.totalSpent + costPoints }

def UserPoints.earn (userPoints : UserPoints) (value : ℤ) : UserPoints :=
  { userPoints with
      points := userPoints.points + value
      totalEarned := userPoints.totalEarned + value }

/-- `remainQuantity: { decrement: 1 }`. -/
def LotteryPrize.decrement (prize : LotteryPrize) : LotteryPrize :=
  { prize with remainQuantity := prize.remainQuantity.map (· - 1) }

@[simp] theorem decrement_id (prize : LotteryPrize) : prize.decrement.id = prize.id := rfl

namespace LotteryDb

variable (db : LotteryDb)

def setPoints (userId : ℕ) (f : UserPoints → UserPoints) : LotteryDb :=
  let userPoints := f ((db.userPoints userId).getD {})
  { db with userPoints := Function.update db.userPoints userId (some userPoints) }

/-- One piece of a prize is taken. -/
def takeStock (prizeId : ℕ) : LotteryDb :=
  { db with prizes := Keyed.modify LotteryPrize.id prizeId LotteryPrize.decrement db.prizes }

/-- A balance prize: the value is in cents. -/
def giveBalance (userId : ℕ) (prize : LotteryPrize) : LotteryDb :=
  match db.balances userId with
  | none => db
  | some balanceBefore =>
      let balanceAfter := balanceBefore + toUnits prize.value
      let log : GiftLog :=
        { userId, amount := toUnits prize.value, balanceBefore, balanceAfter
          remark := s!"抽奖中奖：{prize.name}" }
      { db with
          balances := Function.update db.balances userId (some balanceAfter)
          giftLogs := db.giftLogs ++ [log] }

/-- A resource goes into the pool of the user. -/
def giveResource (userId : ℕ) (prize : LotteryPrize) (resourceType : Char) : LotteryDb :=
  let pool := ((db.pools userId).getD {}).add prize.type prize.value
  let log : ResourcePoolLog :=
    { userId, resourceType, amount := prize.value, remark := s!"抽奖中奖：{prize.name}" }
  { db with
      pools := Function.update db.pools userId (some pool)
      poolLogs := db.poolLogs ++ [log] }

/-- The prize is handed out; nothing happens for `nothing` and `instance`. -/
def deliver (input : DrawInput) (prize : LotteryPrize) : LotteryDb :=
  match prize.type, prize.type.resourceType, input.badge with
  | .balance, _, _ => db.giveBalance input.userId prize
  | .points, _, _ => db.setPoints input.userId (·.earn prize.value)
  | .badge, _, some badge =>
      { db with ownerships := db.ownerships ++ [{ userId := input.userId, badgeId := badge.id }] }
  | _, some resourceType, _ => db.giveResource input.userId prize resourceType
  | _, none, _ => db

/-- `lotteryRecord.create`. -/
def createLotteryRecord (input : DrawInput) (lottery : Lottery) (prize : LotteryPrize) :
    LotteryRecord :=
  let status : LotteryRecordStatus := if prize.type = .ofInstance then .pending else .delivered
  { id := db.records.length + 1
    lotteryId := input.lotteryId
    prizeId := prize.id
    userId := input.userId
    prizeType := prize.type
    prizeValue := prize.resolvedValue
    prizeName := prize.resolvedName input.badge
    status
    pointsSpent := lottery.costPoints
    deliveredAt := if status = .delivered then some input.now else none }

end LotteryDb

/-- The point logs of a draw. -/
def drawLogs (input : DrawInput) (lottery : Lottery) (userPoints : UserPoints)
    (prize : LotteryPrize) (recordId : ℕ) : List DrawPointsLog :=
  { userId := input.userId, type := .lotterySpend, amount := -lottery.costPoints
    pointsBefore := userPoints.points, pointsAfter := userPoints.points - lottery.costPoints
    relatedId := some recordId, remark := s!"抽奖消耗：{lottery.name}" } ::
    (if prize.type = .points then
      [{ userId := input.userId, type := .lotteryWin, amount := prize.value
         pointsBefore := userPoints.points - lottery.costPoints
         pointsAfter := userPoints.points - lottery.costPoints + prize.value
         relatedId := some recordId, remark := s!"抽奖中奖：{prize.name}" }]
    else [])

/-- The rows that a plan writes. -/
def DrawPlan.rows (input : DrawInput) : DrawPlan → List DrawRow
  | .refused _ createsPoints => if createsPoints then [.points input.userId] else []
  | .unpaid _ _ => [.points input.userId]
  | .won _ _ prize takesStock =>
      .points input.userId :: ((if takesStock then [.prize prize.id] else []) ++
        (if prize.type = .balance then [.user input.userId] else []) ++
        (if prize.type.resourceType.isSome then [.pool input.userId] else []))

/-- What a draw returns. -/
structure DrawResult where
  success : Bool
  message : Option String := none
  record : Option LotteryRecord := none
  prize : Option LotteryPrize := none
  currentPoints : Option ℤ := none
deriving DecidableEq

/-- The writes of a plan, on the rows as they are, and what the draw returns. -/
def DrawPlan.run (db : LotteryDb) (input : DrawInput) : DrawPlan → LotteryDb × DrawResult
  | .refused message createsPoints =>
      (if createsPoints then db.setPoints input.userId id else db,
        { success := false, message := some message })
  | .unpaid lottery message =>
      (db.setPoints input.userId (·.spend lottery.costPoints),
        { success := false, message := some message })
  | .won lottery userPoints prize takesStock =>
      let db := db.setPoints input.userId (·.spend lottery.costPoints)
      let db := if takesStock then db.takeStock prize.id else db
      let db := db.deliver input prize
      let record := db.createLotteryRecord input lottery prize
      let logs := drawLogs input lottery userPoints prize record.id
      ({ db with
          records := db.records ++ [record]
          pointsLogs := db.pointsLogs ++ logs },
        { success := true
          record := some record
          prize := some prize
          currentPoints := some (userPoints.points - lottery.costPoints + prize.points) })

/-! ## The transactions -/

/-- A draw that is running. -/
structure DrawSession where
  input : DrawInput
  snapshot : LotteryDb
  takenAt : ℕ

structure LotteryWorld where
  db : LotteryDb
  stamps : Snapshot.Stamps DrawRow := ⟨fun _ => 0, 0⟩
  sessions : ℕ → Option DrawSession := fun _ => none

/-- `performDraw` comes to its end: it throws, it is aborted for a row that was written since its
snapshot, or it commits. -/
def LotteryWorld.performDraw (w : LotteryWorld) (s : DrawSession) :
    LotteryDb × List DrawRow × Except String DrawResult :=
  match planDraw s.snapshot s.input with
  | .error message => (w.db, [], .error message)
  | .ok plan =>
      if w.stamps.conflicts s.takenAt (plan.rows s.input) then
        (w.db, [], .error "could not serialize access due to concurrent update")
      else
        ((plan.run w.db s.input).1, plan.rows s.input, .ok (plan.run w.db s.input).2)

inductive DrawEvent
  | start (session : ℕ) (input : DrawInput)
  | finish (session : ℕ)
  /-- the connection breaks, or the time is up -/
  | abort (session : ℕ)
  /-- another transaction gives points to a user -/
  | earn (userId : ℕ) (value : ℕ)
deriving DecidableEq

def drawStep (w : LotteryWorld) : DrawEvent → Option LotteryWorld
  | .start k input =>
      match w.sessions k with
      | none =>
          let session : DrawSession := { input, snapshot := w.db, takenAt := w.stamps.clock }
          some { w with sessions := Function.update w.sessions k (some session) }
      | some _ => none
  | .finish k =>
      match w.sessions k with
      | none => none
      | some s =>
          let (db, rows, _) := w.performDraw s
          some
            { db
              stamps := w.stamps.record rows
              sessions := Function.update w.sessions k none }
  | .abort k =>
      match w.sessions k with
      | none => none
      | some _ => some { w with sessions := Function.update w.sessions k none }
  | .earn userId value =>
      some
        { w with
            db := w.db.setPoints userId (·.earn value)
            stamps := w.stamps.record [.points userId] }

/-! ## The plan -/

section Plan

variable {db : LotteryDb} {input : DrawInput} {lottery : Lottery} {userPoints : UserPoints}
  {prize : LotteryPrize} {takesStock : Bool} {plan : DrawPlan}

/-- A draw that wins: the points cover the cost, and the prize has a piece in stock that is taken,
or no limit, or it is the fallback with nothing in stock. -/
structure Wins (db : LotteryDb) (input : DrawInput) (lottery : Lottery) (userPoints : UserPoints)
    (prize : LotteryPrize) (takesStock : Bool) : Prop where
  lotteryRow : db.lotteries input.lotteryId = some lottery
  points : userPoints = (db.userPoints input.userId).getD {}
  affordable : lottery.costPoints ≤ userPoints.points
  prizeRow : prize ∈ db.prizes
  stock : takesStock = true ∧ (∃ n, prize.remainQuantity = some n ∧ 0 < n) ∨
    takesStock = false ∧
      (prize.remainQuantity = none ∨ prize.type = .nothing ∧ prize.inStock = false)

theorem inStock_iff {n : ℤ} (h : prize.remainQuantity = some n) : prize.inStock = true ↔ 0 < n := by
  rw [LotteryPrize.inStock, h, Option.all_some, decide_eq_true_eq]

theorem withBadge_ok (h : withBadge input lottery userPoints prize takesStock = .ok plan) :
    plan = .won lottery userPoints prize takesStock := by
  unfold withBadge at h
  split at h
  · cases h
  · exact (Except.ok.inj h).symm

/-- A draw is refused before anything is taken, or it wins: it never ends between the two. -/
theorem planDraw_cases (hids : (db.prizes.map LotteryPrize.id).Nodup)
    (h : planDraw db input = .ok plan) :
    (∃ message createsPoints, plan = .refused message createsPoints) ∨
      ∃ lottery userPoints prize takesStock, Wins db input lottery userPoints prize takesStock ∧
        plan = .won lottery userPoints prize takesStock := by
  unfold planDraw at h
  split at h
  · exact .inl ⟨_, _, (Except.ok.inj h).symm⟩
  rename_i lottery hlottery
  dsimp only at h
  generalize hprizes : db.prizes.filter (fun prize => decide (prize.lotteryId = input.lotteryId)) =
    prizes at h
  have hsublist : prizes.Sublist db.prizes := hprizes ▸ List.filter_sublist
  split at h
  · exact .inl ⟨_, _, (Except.ok.inj h).symm⟩
  split at h
  · exact .inl ⟨_, _, (Except.ok.inj h).symm⟩
  split at h
  · exact .inl ⟨_, _, (Except.ok.inj h).symm⟩
  split at h
  · exact .inl ⟨_, _, (Except.ok.inj h).symm⟩
  split at h
  · exact .inl ⟨_, _, (Except.ok.inj h).symm⟩
  rename_i hpoints
  split at h
  · cases h
  rename_i selected hselect
  -- the row with the id of the selected prize is the selected prize
  have hfound : prizes.find? (fun prize => decide (prize.id = selected.id)) = some selected :=
    Keyed.lookup_of_mem (hids.sublist (hsublist.map _)) (mem_of_weightedRandomSelect hselect)
  rw [hfound] at h
  dsimp only at h
  have hwins : ∀ prize takesStock, prize ∈ prizes →
      (takesStock = true ∧ (∃ n, prize.remainQuantity = some n ∧ 0 < n) ∨
        takesStock = false ∧
          (prize.remainQuantity = none ∨ prize.type = .nothing ∧ prize.inStock = false)) →
      Wins db input lottery ((db.userPoints input.userId).getD {}) prize takesStock :=
    fun prize takesStock hmem hstock =>
      ⟨hlottery, rfl, not_lt.mp hpoints, hsublist.subset hmem, hstock⟩
  have hmem := mem_of_weightedRandomSelect hselect
  by_cases hlimit : selected.remainQuantity = none
  · rw [if_pos hlimit] at h
    exact .inr ⟨_, _, _, _, hwins selected false hmem (.inr ⟨rfl, .inl hlimit⟩), withBadge_ok h⟩
  rw [if_neg hlimit] at h
  obtain ⟨n, hn⟩ := Option.ne_none_iff_exists'.mp hlimit
  by_cases hstock : selected.inStock = true
  · rw [if_pos hstock] at h
    exact .inr ⟨_, _, _, _, hwins selected true hmem
      (.inl ⟨rfl, n, hn, (inStock_iff hn).mp hstock⟩), withBadge_ok h⟩
  · have hnothing := (inStock_of_weightedRandomSelect hselect).resolve_left hstock
    rw [if_neg hstock, hnothing] at h
    have htype := (mem_of_nothingPrize hnothing).2
    exact .inr ⟨_, _, _, _, hwins selected false hmem
      (.inr ⟨rfl, .inr ⟨htype, Bool.eq_false_iff.mpr hstock⟩⟩), withBadge_ok h⟩

end Plan

/-! ## The writes -/

/-- The points of a user; without a row they are zero. -/
def LotteryDb.pointsOf (db : LotteryDb) (userId : ℕ) : ℤ :=
  ((db.userPoints userId).getD {}).points

section Writes

variable {db : LotteryDb} {input : DrawInput} {lottery : Lottery} {userPoints : UserPoints}
  {prize : LotteryPrize} {takesStock : Bool} {f : UserPoints → UserPoints} {u : ℕ}

theorem setPoints_self : (db.setPoints u f).userPoints u = some (f ((db.userPoints u).getD {})) :=
  Function.update_self ..

theorem setPoints_of_ne {v : ℕ} (h : v ≠ u) : (db.setPoints u f).userPoints v = db.userPoints v :=
  Function.update_of_ne h ..

/-- A change of the points row by `d`. -/
theorem pointsOf_setPoints {d : ℤ} (hf : ∀ row : UserPoints, (f row).points = row.points + d)
    (v : ℕ) : (db.setPoints u f).pointsOf v = db.pointsOf v + if v = u then d else 0 := by
  by_cases h : v = u
  · subst h
    rw [if_pos rfl, LotteryDb.pointsOf, setPoints_self]
    exact hf _
  · rw [if_neg h, LotteryDb.pointsOf, setPoints_of_ne h, add_zero]
    rfl

/-- Lotteries, prizes, records and logs are as they were. -/
structure SameTables (db db' : LotteryDb) : Prop where
  lotteries : db'.lotteries = db.lotteries
  prizes : db'.prizes = db.prizes
  records : db'.records = db.records
  pointsLogs : db'.pointsLogs = db.pointsLogs

/-- Handing out a prize touches no stock, record or log of points, and adds the points of a points
prize. -/
theorem deliver_spec (db : LotteryDb) (input : DrawInput) (prize : LotteryPrize) :
    SameTables db (db.deliver input prize) ∧
      ∀ v, (db.deliver input prize).pointsOf v =
        db.pointsOf v + if v = input.userId then prize.points else 0 := by
  have hnone : prize.type ≠ .points → ∀ v, db.pointsOf v =
      db.pointsOf v + if v = input.userId then prize.points else 0 := by
    intro htype v
    rw [LotteryPrize.points, if_neg htype, ite_self, add_zero]
  unfold LotteryDb.deliver
  split
  · rename_i htype
    have hother : prize.type ≠ .points := fun h => by rw [htype] at h; cases h
    unfold LotteryDb.giveBalance
    split
    · exact ⟨⟨rfl, rfl, rfl, rfl⟩, hnone hother⟩
    · exact ⟨⟨rfl, rfl, rfl, rfl⟩, hnone hother⟩
  · rename_i htype
    refine ⟨⟨rfl, rfl, rfl, rfl⟩, fun v => ?_⟩
    rw [LotteryPrize.points, if_pos htype]
    exact pointsOf_setPoints (fun _ => rfl) v
  · rename_i htype _
    exact ⟨⟨rfl, rfl, rfl, rfl⟩, hnone fun h => by rw [htype] at h; cases h⟩
  · rename_i hresource _ hpoints _
    exact ⟨⟨rfl, rfl, rfl, rfl⟩, hnone fun h => hpoints h⟩
  · rename_i hpoints _
    exact ⟨⟨rfl, rfl, rfl, rfl⟩, hnone fun h => hpoints h⟩

/-- Handing out a prize writes the rows that the plan names. -/
theorem deliver_read (db : LotteryDb) {row : DrawRow}
    (hrow : row ∉ (DrawPlan.won lottery userPoints prize takesStock).rows input) :
    (db.deliver input prize).read row = db.read row := by
  have hpoints : row ≠ .points input.userId := fun h => hrow (h ▸ List.mem_cons_self)
  unfold LotteryDb.deliver
  split
  · rename_i htype
    have huser : row ≠ .user input.userId := by
      rintro rfl
      exact hrow (by simp [DrawPlan.rows, htype])
    unfold LotteryDb.giveBalance
    split
    · rfl
    · cases row with
      | user id => exact Function.update_of_ne (fun h => huser (congrArg DrawRow.user h)) ..
      | points userId => rfl
      | prize id => rfl
      | pool userId => rfl
  · cases row with
    | points userId => exact setPoints_of_ne fun h => hpoints (congrArg DrawRow.points h)
    | user id => rfl
    | prize id => rfl
    | pool userId => rfl
  · cases row <;> rfl
  · rename_i hresource _ _ _
    have hpool : row ≠ .pool input.userId := by
      rintro rfl
      exact hrow (by simp [DrawPlan.rows, hresource])
    cases row with
    | pool userId => exact Function.update_of_ne (fun h => hpool (congrArg DrawRow.pool h)) ..
    | points userId => rfl
    | user id => rfl
    | prize id => rfl
  · rfl

theorem setPoints_read {row : DrawRow} (h : row ≠ .points u) :
    (db.setPoints u f).read row = db.read row := by
  cases row with
  | points userId => exact setPoints_of_ne fun he => h (congrArg DrawRow.points he)
  | user id => rfl
  | prize id => rfl
  | pool userId => rfl

theorem takeStock_read {row : DrawRow} {id : ℕ} (h : row ≠ .prize id) :
    (db.takeStock id).read row = db.read row := by
  cases row with
  | prize k =>
    exact Keyed.lookup_modify_of_ne decrement_id fun he => h (congrArg DrawRow.prize he)
  | points userId => rfl
  | user id => rfl
  | pool userId => rfl

/-- A plan writes the rows that it names. -/
theorem run_read (plan : DrawPlan) {row : DrawRow} (hrow : row ∉ plan.rows input) :
    (plan.run db input).1.read row = db.read row := by
  cases plan with
  | refused message createsPoints =>
    cases createsPoints with
    | true => exact setPoints_read fun h => hrow (h ▸ List.mem_singleton_self _)
    | false => rfl
  | unpaid lottery message =>
    have hpoints : row ≠ .points input.userId := fun h => hrow (h ▸ List.mem_singleton_self _)
    show (db.setPoints input.userId (·.spend lottery.costPoints)).read row = _
    exact setPoints_read hpoints
  | won lottery userPoints prize takesStock =>
    have hpoints : row ≠ .points input.userId := fun h => hrow (h ▸ List.mem_cons_self)
    have hpaid : (db.setPoints input.userId (·.spend lottery.costPoints)).read row = db.read row :=
      setPoints_read hpoints
    -- records and logs are in no row
    show LotteryDb.read (LotteryDb.deliver _ input prize) row = _
    rw [deliver_read _ hrow]
    cases takesStock with
    | false => exact hpaid
    | true =>
      have hprize : row ≠ .prize prize.id := by
        rintro rfl
        exact hrow (by simp [DrawPlan.rows])
      exact (takeStock_read hprize).trans hpaid

/-- What a win writes. -/
theorem run_won (db : LotteryDb) (input : DrawInput) (lottery : Lottery) (userPoints : UserPoints)
    (prize : LotteryPrize) (takesStock : Bool) :
    let db' := ((DrawPlan.won lottery userPoints prize takesStock).run db input).1
    (∀ v, db'.pointsOf v =
      db.pointsOf v + if v = input.userId then prize.points - lottery.costPoints else 0) ∧
      db'.lotteries = db.lotteries ∧
      db'.prizes = (if takesStock then (db.takeStock prize.id).prizes else db.prizes) ∧
      (∃ record : LotteryRecord, db'.records = db.records ++ [record] ∧
        record.prizeId = prize.id ∧ record.userId = input.userId ∧
        record.pointsSpent = lottery.costPoints ∧
        db'.pointsLogs = db.pointsLogs ++ drawLogs input lottery userPoints prize record.id) := by
  intro db'
  generalize hpaid : (db.setPoints input.userId (·.spend lottery.costPoints)) = paid
  generalize htaken : (if takesStock then paid.takeStock prize.id else paid) = taken
  have hdb' : db' = { taken.deliver input prize with
      records := (taken.deliver input prize).records ++
        [(taken.deliver input prize).createLotteryRecord input lottery prize]
      pointsLogs := (taken.deliver input prize).pointsLogs ++
        drawLogs input lottery userPoints prize
          ((taken.deliver input prize).createLotteryRecord input lottery prize).id } := by
    rw [← htaken, ← hpaid]
    rfl
  have hpoints : ∀ v, taken.pointsOf v =
      db.pointsOf v + if v = input.userId then -lottery.costPoints else 0 := by
    intro v
    have hpaidPoints : paid.pointsOf v =
        db.pointsOf v + if v = input.userId then -lottery.costPoints else 0 :=
      hpaid ▸ pointsOf_setPoints (fun _ => sub_eq_add_neg _ _) v
    rw [← htaken]
    cases takesStock with
    | true => exact hpaidPoints
    | false => exact hpaidPoints
  have htables : taken.records = db.records ∧ taken.pointsLogs = db.pointsLogs ∧
      taken.prizes = (if takesStock then (db.takeStock prize.id).prizes else db.prizes) ∧
      taken.lotteries = db.lotteries := by
    rw [← htaken, ← hpaid]
    cases takesStock with
    | true => exact ⟨rfl, rfl, rfl, rfl⟩
    | false => exact ⟨rfl, rfl, rfl, rfl⟩
  obtain ⟨hsame, hdelivered⟩ := deliver_spec taken input prize
  refine ⟨fun v => ?_, ?_, ?_, (taken.deliver input prize).createLotteryRecord input lottery prize, ?_,
    rfl, rfl, rfl, ?_⟩
  · have hv : db'.pointsOf v = (taken.deliver input prize).pointsOf v := by rw [hdb']; rfl
    rw [hv, hdelivered, hpoints]
    split <;> ring
  · rw [hdb']
    exact hsame.lotteries.trans htables.2.2.2
  · rw [hdb']
    exact hsame.prizes.trans htables.2.2.1
  · rw [hdb', ← htables.1, ← hsame.records]
  · rw [hdb', ← htables.2.1, ← hsame.pointsLogs]

end Writes

/-! ## What a draw does to the tables -/

/-- Points, stocks, records and logs are as they were. -/
structure SameDraws (db db' : LotteryDb) : Prop extends SameTables db db' where
  points : ∀ v, db'.pointsOf v = db.pointsOf v

/-- The cost is taken once, one record is written, and one piece is taken from the stock of the
prize, if it has one. -/
structure WonDraw (db db' : LotteryDb) (input : DrawInput) (lottery : Lottery)
    (prize : LotteryPrize) : Prop where
  lotteryRow : db.lotteries input.lotteryId = some lottery
  lotteries : db'.lotteries = db.lotteries
  affordable : lottery.costPoints ≤ db.pointsOf input.userId
  points : ∀ v, db'.pointsOf v =
    db.pointsOf v + if v = input.userId then prize.points - lottery.costPoints else 0
  record : ∃ record : LotteryRecord, db'.records = db.records ++ [record] ∧
    record.prizeId = prize.id ∧ record.userId = input.userId ∧
    record.pointsSpent = lottery.costPoints ∧
    ∃ userPoints, userPoints.points = db.pointsOf input.userId ∧
      db'.pointsLogs = db.pointsLogs ++ drawLogs input lottery userPoints prize record.id
  prizeRow : ∃ row ∈ db.prizes, row.id = prize.id ∧ row.type = prize.type ∧
    (row.remainQuantity = none ↔ prize.remainQuantity = none)
  stock : Keyed.lookup LotteryPrize.id prize.id db.prizes = some prize ∧
      (∃ n, prize.remainQuantity = some n ∧ 0 < n) ∧
      db'.prizes = Keyed.modify LotteryPrize.id prize.id LotteryPrize.decrement db.prizes ∨
    (prize.remainQuantity = none ∨ prize.type = .nothing ∧ prize.inStock = false) ∧
      db'.prizes = db.prizes

/-- A draw that throws, is aborted or returns a failure changes nothing, and one that returns a
success has won. -/
def DrawKept (db db' : LotteryDb) (input : DrawInput) (returned : Except String DrawResult) : Prop :=
  match returned with
  | .error _ => db' = db
  | .ok result =>
      result.success = false ∧ SameDraws db db' ∨
        result.success = true ∧ ∃ lottery prize, result.prize = some prize ∧
          WonDraw db db' input lottery prize

/-- How often a prize was handed out between two states. -/
def handedOut (db db' : LotteryDb) (prizeId : ℕ) : ℤ :=
  db'.records.countP (fun record => decide (record.prizeId = prizeId)) -
    db.records.countP (fun record => decide (record.prizeId = prizeId))

/-! ## Runs -/

/-- No draw is running, and prizes are told apart by their ids. -/
structure LotteryWorld.DrawStart (w : LotteryWorld) : Prop where
  idle : ∀ k, w.sessions k = none
  ids : (w.db.prizes.map LotteryPrize.id).Nodup

/-- The prizes are those of `prizes₀`, up to their stocks. -/
structure SamePrizes (prizes₀ prizes : List LotteryPrize) : Prop where
  ids : prizes.map LotteryPrize.id = prizes₀.map LotteryPrize.id
  kinds : ∀ prize ∈ prizes, ∃ prize₀ ∈ prizes₀, prize₀.id = prize.id ∧
    prize₀.type = prize.type ∧ (prize.remainQuantity = none ↔ prize₀.remainQuantity = none)

theorem SamePrizes.refl (prizes : List LotteryPrize) : SamePrizes prizes prizes :=
  ⟨rfl, fun prize hprize => ⟨prize, hprize, rfl, rfl, Iff.rfl⟩⟩

/-- Of two tables of the same prizes, each has the prizes of the other. -/
theorem SamePrizes.row {prizes₀ prizes prizes' : List LotteryPrize}
    (hids : (prizes₀.map LotteryPrize.id).Nodup) (h : SamePrizes prizes₀ prizes)
    (h' : SamePrizes prizes₀ prizes') {prize : LotteryPrize} (hprize : prize ∈ prizes) :
    ∃ row ∈ prizes', row.id = prize.id ∧ row.type = prize.type ∧
      (row.remainQuantity = none ↔ prize.remainQuantity = none) := by
  obtain ⟨prize₀, hprize₀, hid, htype, hlimit⟩ := h.kinds prize hprize
  have hmem : prize₀.id ∈ prizes'.map LotteryPrize.id := by
    rw [h'.ids]
    exact List.mem_map_of_mem hprize₀
  obtain ⟨row, hrow, hrowId⟩ := List.mem_map.mp hmem
  obtain ⟨other, hother, hotherId, hotherType, hotherLimit⟩ := h'.kinds row hrow
  obtain rfl : other = prize₀ :=
    List.inj_on_of_nodup_map hids hother hprize₀ (hotherId.trans hrowId)
  exact ⟨row, hrow, hrowId.trans hid, hotherType.symm.trans htype,
    hotherLimit.trans hlimit.symm⟩

theorem SamePrizes.decrement {prizes₀ prizes : List LotteryPrize} (h : SamePrizes prizes₀ prizes)
    (id : ℕ) :
    SamePrizes prizes₀ (Keyed.modify LotteryPrize.id id LotteryPrize.decrement prizes) where
  ids := (Keyed.map_key_modify decrement_id).trans h.ids
  kinds := by
    intro prize hprize
    obtain ⟨old, hold, rfl⟩ := Keyed.mem_modify.mp hprize
    obtain ⟨prize₀, hmem, hid, htype, hlimit⟩ := h.kinds old hold
    split
    · exact ⟨prize₀, hmem, hid, htype, Option.map_eq_none_iff.trans hlimit⟩
    · exact ⟨prize₀, hmem, hid, htype, hlimit⟩

/-- What every state of a run keeps: the snapshots are fresh, and what is left of a limited prize
is what there was less what was handed out. -/
structure DrawInv (db₀ : LotteryDb) (w : LotteryWorld) : Prop where
  prizes : SamePrizes db₀.prizes w.db.prizes
  lotteries : w.db.lotteries = db₀.lotteries
  snapshots : ∀ k s, w.sessions k = some s →
    Snapshot.Fresh LotteryDb.read w.stamps s.takenAt w.db s.snapshot ∧
      SamePrizes db₀.prizes s.snapshot.prizes ∧ s.snapshot.lotteries = db₀.lotteries
  stocks : ∀ prize ∈ db₀.prizes, ∀ n, prize.remainQuantity = some n → prize.type ≠ .nothing →
    ∃ left, Keyed.lookup LotteryPrize.id prize.id w.db.prizes = some left ∧
      left.remainQuantity = some (n - handedOut db₀ w.db prize.id) ∧
      handedOut db₀ w.db prize.id ≤ max 0 n

section Runs

variable {db₀ : LotteryDb} {w w' : LotteryWorld} {k : ℕ} {s : DrawSession}

theorem handedOut_self (db : LotteryDb) (id : ℕ) : handedOut db db id = 0 := sub_self _

theorem drawInv_start (h : w.DrawStart) : DrawInv w.db w where
  prizes := .refl _
  lotteries := rfl
  snapshots := by
    intro k s hs
    rw [h.idle k] at hs
    cases hs
  stocks := by
    intro prize hprize n hn _
    refine ⟨prize, Keyed.lookup_of_mem h.ids hprize, ?_, ?_⟩
    · rw [handedOut_self, sub_zero]
      exact hn
    · rw [handedOut_self]
      exact le_max_left _ _

/-- The points row that a draw writes is the one of its snapshot. -/
theorem points_of_fresh {keys : List DrawRow}
    (hfresh : Snapshot.Fresh LotteryDb.read w.stamps s.takenAt w.db s.snapshot)
    (hfree : w.stamps.conflicts s.takenAt keys = false) (hmem : .points s.input.userId ∈ keys) :
    w.db.userPoints s.input.userId = s.snapshot.userPoints s.input.userId :=
  hfresh.read_eq hfree hmem

theorem performDraw_frame (w : LotteryWorld) (s : DrawSession) {row : DrawRow}
    (hrow : row ∉ (w.performDraw s).2.1) : (w.performDraw s).1.read row = w.db.read row := by
  unfold LotteryWorld.performDraw at hrow ⊢
  split
  · rfl
  · rename_i plan hplan
    rw [hplan] at hrow
    dsimp only at hrow
    split
    · rfl
    · rename_i hfree
      rw [if_neg hfree] at hrow
      exact run_read plan hrow

/-- However a draw ends, it changes nothing or has won. -/
theorem performDraw_kept (hids : (db₀.prizes.map LotteryPrize.id).Nodup) (hi : DrawInv db₀ w)
    (hs : w.sessions k = some s) :
    DrawKept w.db (w.performDraw s).1 s.input (w.performDraw s).2.2 := by
  obtain ⟨hfresh, hprizes, hlotteries⟩ := hi.snapshots k s hs
  unfold LotteryWorld.performDraw
  split
  · exact rfl
  rename_i plan hplan
  split
  · exact rfl
  rename_i hconflict
  have hfree := Bool.eq_false_iff.mpr hconflict
  rcases planDraw_cases (hprizes.ids ▸ hids) hplan with
    ⟨message, createsPoints, rfl⟩ | ⟨lottery, userPoints, prize, takesStock, hwins, rfl⟩
  · refine .inl ⟨rfl, ?_⟩
    cases createsPoints with
    | false => exact ⟨⟨rfl, rfl, rfl, rfl⟩, fun _ => rfl⟩
    | true =>
      refine ⟨⟨rfl, rfl, rfl, rfl⟩, fun v => ?_⟩
      have hsame : (w.db.setPoints s.input.userId id).pointsOf v =
          w.db.pointsOf v + if v = s.input.userId then 0 else 0 :=
        pointsOf_setPoints (fun _ => (add_zero _).symm) v
      rw [ite_self, add_zero] at hsame
      exact hsame
  · obtain ⟨hpoints, hsameLotteries, htables, record, hrecord⟩ :=
      run_won w.db s.input lottery userPoints prize takesStock
    have hrow := points_of_fresh hfresh hfree List.mem_cons_self
    have hread : userPoints.points = w.db.pointsOf s.input.userId := by
      rw [hwins.points, LotteryDb.pointsOf, hrow]
    refine .inr ⟨rfl, lottery, prize, rfl, ?_⟩
    refine
      { lotteryRow := by rw [hi.lotteries, ← hlotteries]; exact hwins.lotteryRow
        lotteries := hsameLotteries
        affordable := hread ▸ hwins.affordable
        points := hpoints
        record := ⟨record, hrecord.1, hrecord.2.1, hrecord.2.2.1, hrecord.2.2.2.1, userPoints,
          hread, hrecord.2.2.2.2⟩
        prizeRow := hprizes.row hids hi.prizes hwins.prizeRow
        stock := ?_ }
    rcases hwins.stock with ⟨rfl, hstock⟩ | ⟨rfl, hstock⟩
    · -- the row of the prize is the one that the draw has read
      have hprize : w.db.read (.prize prize.id) = s.snapshot.read (.prize prize.id) :=
        hfresh.read_eq hfree (by simp [DrawPlan.rows])
      refine .inl ⟨hprize.trans ?_, hstock, htables⟩
      exact Keyed.lookup_of_mem (hprizes.ids ▸ hids) hwins.prizeRow
    · exact .inr ⟨hstock, htables⟩

/-- What is left of the limited prizes after a draw. -/
theorem stocks_of_won {db db' : LotteryDb} {input : DrawInput} {lottery : Lottery}
    {prize prize₀ : LotteryPrize} {n : ℤ} (hids : (db₀.prizes.map LotteryPrize.id).Nodup)
    (hprizes : SamePrizes db₀.prizes db.prizes) (hwon : WonDraw db db' input lottery prize)
    (hprize₀ : prize₀ ∈ db₀.prizes) (hn : prize₀.remainQuantity = some n)
    (htype : prize₀.type ≠ .nothing) {left : LotteryPrize}
    (hleft : Keyed.lookup LotteryPrize.id prize₀.id db.prizes = some left)
    (hremain : left.remainQuantity = some (n - handedOut db₀ db prize₀.id))
    (hle : handedOut db₀ db prize₀.id ≤ max 0 n) :
    ∃ left, Keyed.lookup LotteryPrize.id prize₀.id db'.prizes = some left ∧
      left.remainQuantity = some (n - handedOut db₀ db' prize₀.id) ∧
      handedOut db₀ db' prize₀.id ≤ max 0 n := by
  obtain ⟨record, hrecords, hrecordPrize, -⟩ := hwon.record
  have hhanded : handedOut db₀ db' prize₀.id =
      handedOut db₀ db prize₀.id + if prize.id = prize₀.id then 1 else 0 := by
    unfold handedOut
    rw [hrecords, List.countP_append, List.countP_singleton, hrecordPrize]
    by_cases hsame : prize.id = prize₀.id
    · simp only [hsame, decide_true, if_true]
      push_cast
      ring
    · simp only [hsame, decide_false, if_false]
      simp
  by_cases hsame : prize.id = prize₀.id
  · rw [if_pos hsame] at hhanded
    rcases hwon.stock with ⟨hlookup, ⟨m, hm, hpos⟩, htaken⟩ | ⟨hfree, -⟩
    · -- the last row read is the one with the stock that is left
      obtain rfl : prize = left := by
        rw [← hsame] at hleft
        exact Option.some.inj (hlookup.symm.trans hleft)
      have hmleft : m = n - handedOut db₀ db prize₀.id := Option.some.inj (hm.symm.trans hremain)
      refine ⟨prize.decrement, ?_, ?_, ?_⟩
      · rw [htaken, ← hsame]
        exact Keyed.lookup_modify_self decrement_id hlookup
      · rw [hhanded, ← sub_sub, ← hmleft]
        exact congrArg (Option.map (· - 1)) hm
      · refine le_trans ?_ (le_max_right 0 n)
        linarith
    · -- a prize without a limit, or the fallback, is none of these
      obtain ⟨row, hrow, hrowId, hrowType, hrowLimit⟩ := hwon.prizeRow
      obtain ⟨other, hother, hotherId, hotherType, hotherLimit⟩ := hprizes.kinds row hrow
      obtain rfl : other = prize₀ :=
        List.inj_on_of_nodup_map hids hother hprize₀ (hotherId.trans (hrowId.trans hsame))
      rcases hfree with hnone | ⟨hnothing, -⟩
      · have hunlimited := hotherLimit.mp (hrowLimit.mpr hnone)
        rw [hn] at hunlimited
        cases hunlimited
      · exact absurd (hotherType.trans (hrowType.trans hnothing)) htype
  · rw [if_neg hsame, add_zero] at hhanded
    rw [hhanded]
    refine ⟨left, ?_, hremain, hle⟩
    rcases hwon.stock with ⟨-, -, htaken⟩ | ⟨-, hkept⟩
    · rw [htaken]
      exact (Keyed.lookup_modify_of_ne decrement_id (Ne.symm hsame)).trans hleft
    · rw [hkept]
      exact hleft

/-- A commit of the rows `keys` keeps the invariant. -/
theorem DrawInv.commit (hi : DrawInv db₀ w) {keys : List DrawRow} {db' : LotteryDb}
    {sessions : ℕ → Option DrawSession}
    (hframe : ∀ row, row ∉ keys → db'.read row = w.db.read row)
    (hlotteries : db'.lotteries = w.db.lotteries) (hprizes : SamePrizes db₀.prizes db'.prizes)
    (hstocks : ∀ prize ∈ db₀.prizes, ∀ n, prize.remainQuantity = some n → prize.type ≠ .nothing →
      ∃ left, Keyed.lookup LotteryPrize.id prize.id db'.prizes = some left ∧
        left.remainQuantity = some (n - handedOut db₀ db' prize.id) ∧
        handedOut db₀ db' prize.id ≤ max 0 n)
    (hsessions : ∀ j s, sessions j = some s → w.sessions j = some s) :
    DrawInv db₀ { db := db', stamps := w.stamps.record keys, sessions } where
  prizes := hprizes
  lotteries := hlotteries.trans hi.lotteries
  snapshots := by
    intro j s hs
    obtain ⟨hfresh, hold⟩ := hi.snapshots j s (hsessions j s hs)
    exact ⟨hfresh.commit hframe, hold⟩
  stocks := hstocks

theorem sessions_of_end {j : ℕ} (h : Function.update w.sessions k none j = some s) :
    w.sessions j = some s := by
  by_cases hj : j = k
  · subst hj
    rw [Function.update_self] at h
    cases h
  · rwa [Function.update_of_ne hj] at h

/-- The end of a draw keeps the invariant. -/
theorem DrawInv.finish (hids : (db₀.prizes.map LotteryPrize.id).Nodup) (hi : DrawInv db₀ w)
    (hs : w.sessions k = some s) :
    DrawInv db₀
      { db := (w.performDraw s).1
        stamps := w.stamps.record (w.performDraw s).2.1
        sessions := Function.update w.sessions k none } := by
  have hkept := performDraw_kept hids hi hs
  have hframe : ∀ row, row ∉ (w.performDraw s).2.1 →
      (w.performDraw s).1.read row = w.db.read row := fun row => performDraw_frame w s
  have hend : ∀ j t, Function.update w.sessions k none j = some t → w.sessions j = some t :=
    fun j t => sessions_of_end
  generalize (w.performDraw s).2.1 = keys at hframe ⊢
  generalize (w.performDraw s).2.2 = returned at hkept
  generalize (w.performDraw s).1 = db' at hkept hframe ⊢
  cases returned with
  | error message =>
    obtain rfl : db' = w.db := hkept
    exact hi.commit hframe rfl hi.prizes hi.stocks hend
  | ok result =>
    rcases hkept with ⟨-, hsame⟩ | ⟨-, lottery, prize, -, hwon⟩
    · refine hi.commit hframe hsame.lotteries (hsame.prizes ▸ hi.prizes) ?_ hend
      intro prize₀ hprize₀ n hn htype
      have hhanded : handedOut db₀ db' prize₀.id = handedOut db₀ w.db prize₀.id := by
        unfold handedOut
        rw [hsame.records]
      rw [hhanded, hsame.prizes]
      exact hi.stocks prize₀ hprize₀ n hn htype
    · refine hi.commit hframe hwon.lotteries ?_ ?_ hend
      · rcases hwon.stock with ⟨-, -, htaken⟩ | ⟨-, hkeep⟩
        · exact htaken ▸ hi.prizes.decrement prize.id
        · exact hkeep ▸ hi.prizes
      · intro prize₀ hprize₀ n hn htype
        obtain ⟨left, hleft, hremain, hle⟩ := hi.stocks prize₀ hprize₀ n hn htype
        exact stocks_of_won hids hi.prizes hwon hprize₀ hn htype hleft hremain hle

theorem DrawInv.step {event : DrawEvent} (hids : (db₀.prizes.map LotteryPrize.id).Nodup)
    (hi : DrawInv db₀ w) (h : drawStep w event = some w') : DrawInv db₀ w' := by
  cases event with
  | start k input =>
    simp only [drawStep] at h
    split at h
    · cases h
      refine ⟨hi.prizes, hi.lotteries, fun j s hs => ?_, hi.stocks⟩
      by_cases hj : j = k
      · subst hj
        have hnow := (Function.update_self j _ w.sessions).symm.trans hs
        obtain rfl := Option.some.inj hnow
        exact ⟨.begin _ _ _, hi.prizes, hi.lotteries⟩
      · exact hi.snapshots j s ((Function.update_of_ne hj _ w.sessions).symm.trans hs)
    · cases h
  | finish k =>
    simp only [drawStep] at h
    split at h
    · cases h
    · rename_i s hs
      cases h
      exact hi.finish hids hs
  | abort k =>
    simp only [drawStep] at h
    split at h
    · cases h
    · cases h
      exact ⟨hi.prizes, hi.lotteries, fun j s hs => hi.snapshots j s (sessions_of_end hs),
        hi.stocks⟩
  | earn userId value =>
    simp only [drawStep] at h
    cases h
    refine hi.commit (fun row hrow => setPoints_read ?_) rfl hi.prizes hi.stocks fun _ _ hs => hs
    exact fun he => hrow (he ▸ List.mem_singleton_self _)

/-- Over any interleaving of draws: each one that ends has changed nothing, or has taken its cost
once, written one record and taken one piece of its prize, if the prize has a stock and is not the
fallback with nothing left; one that breaks off changes nothing; and a limited prize that is not of
type `nothing` is handed out at most as often as there were pieces. -/
theorem lottery_draws_kept {w₀ w : LotteryWorld} (hstart : w₀.DrawStart)
    (h : Machine.Reach drawStep Machine.free w₀ w) :
    (∀ k w', drawStep w (.finish k) = some w' → ∃ s, w.sessions k = some s ∧
      DrawKept w.db w'.db s.input (w.performDraw s).2.2) ∧
      (∀ k w', drawStep w (.abort k) = some w' → w'.db = w.db) ∧
      ∀ prize ∈ w₀.db.prizes, ∀ n, prize.remainQuantity = some n → prize.type ≠ .nothing →
        handedOut w₀.db w.db prize.id ≤ max 0 n := by
  have hinv : DrawInv w₀.db w := h.invariant (drawInv_start hstart)
    fun hi _ hstep => hi.step hstart.ids hstep
  refine ⟨fun k w' hw' => ?_, fun k w' hw' => ?_, fun prize hprize n hn htype => ?_⟩
  · simp only [drawStep] at hw'
    split at hw'
    · cases hw'
    · rename_i s hs
      cases hw'
      exact ⟨s, hs, performDraw_kept hstart.ids hinv hs⟩
  · simp only [drawStep] at hw'
    split at hw'
    · cases hw'
    · cases hw'
      rfl
  · obtain ⟨left, -, -, hle⟩ := hinv.stocks prize hprize n hn htype
    exact hle

end Runs

/-- A lottery at ten points with one instance to win, and two users with points for one draw
each. -/
def lastPieceWorld (fallbackStock : Option ℤ) : LotteryWorld where
  db :=
    { lotteries := fun id => if id = 1 then some { name := "春节", costPoints := 10 } else none
      prizes :=
        [{ id := 1, type := .ofInstance, probability := 1, remainQuantity := some 1 },
         { id := 2, type := .nothing, probability := 99, remainQuantity := fallbackStock }]
      userPoints := fun id => if id ∈ [7, 8] then some { points := 10 } else none }

theorem lastPieceWorld_start (fallbackStock : Option ℤ) :
    (lastPieceWorld fallbackStock).DrawStart where
  idle := fun _ => rfl
  ids := by
    show ([1, 2] : List ℕ).Nodup
    decide

/-- Two users draw the last piece at the same time; one of them is aborted and tries again. -/
def lastPieceEvents : List DrawEvent :=
  [.start 1 { userId := 7, lotteryId := 1, now := 0, random := 0 },
   .start 2 { userId := 8, lotteryId := 1, now := 0, random := 0 },
   .finish 1, .finish 2, .start 2 { userId := 8, lotteryId := 1, now := 0, random := 0 },
   .finish 2]

theorem lottery_draws_kept_last_piece : ∃ w : LotteryWorld,
    w.db.records.map LotteryRecord.prizeId = [1, 2] ∧
      handedOut (lastPieceWorld none).db w.db 1 ≤ 1 := by
  have hrun : (Machine.exec drawStep (lastPieceWorld none) lastPieceEvents).map
      (fun w => w.db.records.map LotteryRecord.prizeId) = some [1, 2] := by
    decide +kernel
  obtain ⟨w, hexec, hrecords⟩ := Option.map_eq_some_iff.mp hrun
  refine ⟨w, hrecords, ?_⟩
  obtain ⟨-, -, hstocks⟩ :=
    lottery_draws_kept (lastPieceWorld_start none) (Machine.reach_of_exec hexec)
  exact hstocks _ List.mem_cons_self 1 rfl (by decide)

/-- A prize of type `nothing` with no piece left is handed out. -/
theorem fallback_without_stock :
    ¬∀ (w₀ w : LotteryWorld), w₀.DrawStart → Machine.Reach drawStep Machine.free w₀ w →
      ∀ prize ∈ w₀.db.prizes, ∀ n, prize.remainQuantity = some n →
        handedOut w₀.db w.db prize.id ≤ max 0 n := by
  intro hall
  have hrun : (Machine.exec drawStep (lastPieceWorld (some 0))
      [.start 1 { userId := 7, lotteryId := 1, now := 0, random := 50 }, .finish 1]).map
      (fun w => w.db.records.map LotteryRecord.prizeId) = some [2] := by
    decide +kernel
  obtain ⟨w, hexec, hrecords⟩ := Option.map_eq_some_iff.mp hrun
  have hle := hall _ w (lastPieceWorld_start (some 0)) (Machine.reach_of_exec hexec)
    _ (List.mem_cons_of_mem _ List.mem_cons_self) 0 rfl
  have hcount : handedOut (lastPieceWorld (some 0)).db w.db 2 = 1 := by
    have hone : w.db.records.countP (fun record => decide (record.prizeId = 2)) =
        (w.db.records.map LotteryRecord.prizeId).countP fun id => decide (id = 2) := by
      rw [List.countP_map]
      rfl
    rw [handedOut, hone, hrecords]
    rfl
  rw [hcount] at hle
  exact absurd hle (by decide)

end Incudal
