/-
# `Points` — the point account of a user under concurrent transactions

The operations of `db/points.ts` run at the level read committed.  Each reads
the account, checks in memory what it has read, and then increments or
decrements the row as it finds it; a conversion also overwrites the mark up to
which consumption has been converted.  Between the read and the write any
number of other transactions may commit.

Points, totals and log agree in every state, for they are changed together.
That points do not go below zero and that no consumption is converted twice
depends on the check still holding of the row that is written: `writesChecked`
is that condition on a commit, `points_kept` is about the runs that meet it and
`deductions_overdraw` is a run that does not.  An addition of a negative amount,
by which a failed redemption is taken back, checks nothing at all.
-/
import Mathlib.Algebra.Order.Round
import Mathlib.Tactic.Linarith
import Mathlib.Tactic.NormNum
import Incudal.Store
import Incudal.Lib.Machine

namespace Incudal

/-! ## Rows and transactions -/

/-- The row of `user_points`. -/
structure UserPoints where
  points : ℤ := 0
  totalEarned : ℤ := 0
  totalSpent : ℤ := 0
  convertedConsume : Cents := 0
deriving DecidableEq, Repr

/-- `PointsLogType`, as far as it is written here. -/
inductive PointsLogType
  | convert | lotteryWin | lotterySpend | adminAdjust | checkin
deriving DecidableEq, Repr

structure PointsLog where
  type : PointsLogType
  amount : ℤ
  pointsBefore : ℤ
  pointsAfter : ℤ
deriving DecidableEq, Repr

/-- A balance log of a type that counts as consumption. -/
structure ConsumeLog where
  amount : Units
  balanceBefore : Units
  balanceAfter : Units
deriving DecidableEq, Repr

/-- The fall of the balance, or the amount where old logs have the other sign. -/
def ConsumeLog.consumed (log : ConsumeLog) : Units :=
  if log.balanceBefore > log.balanceAfter then log.balanceBefore - log.balanceAfter
  else |log.amount|

/-- `getUserTotalConsume`. -/
def getUserTotalConsume (logs : List ConsumeLog) : Units := (logs.map ConsumeLog.consumed).sum

inductive PointsOperation
  | convertPointsFromConsumption
  | deductPoints (amount : ℤ)
  | addPoints (amount : ℤ) (type : PointsLogType)
  | adminAdjustPoints (amount : ℤ)
deriving DecidableEq, Repr

/-- A transaction that has read the account; a conversion then sums up the consumption. -/
structure PointsTransaction where
  operation : PointsOperation
  userPoints : UserPoints
  totalConsume : Option Units := none
deriving DecidableEq, Repr

/-- The cents that a conversion has turned into points, from one mark to the other. -/
structure Conversion where
  start : Cents
  stop : Cents
deriving DecidableEq, Repr

structure PointsWorld where
  userPoints : Option UserPoints := none
  consumes : List ConsumeLog := []
  pointsLogs : List PointsLog := []
  /-- what the conversions have converted, newest first -/
  conversions : List Conversion := []
  transactions : List PointsTransaction := []

/-! ## The operations -/

/-- The check of an operation on the account it has read. -/
def PointsOperation.passes (userPoints : UserPoints) : PointsOperation → Bool
  | .convertPointsFromConsumption => true
  | .deductPoints amount => amount ≤ userPoints.points
  | .addPoints _ _ => true
  | .adminAdjustPoints amount => !(decide (amount < 0) && decide (userPoints.points + amount < 0))

/-- What a transaction writes to the row it finds, and into the log. -/
structure PointsWrite where
  points : ℤ
  totalEarned : ℤ := 0
  totalSpent : ℤ := 0
  convertedConsume : Option Cents := none
  type : PointsLogType
deriving DecidableEq, Repr

/-- The cents of consumption that are new to a conversion, and the points they give. -/
def newConvertableConsume (totalConsume : Units) (alreadyConverted : Cents) : Units :=
  totalConsume - toUnits alreadyConverted

def PointsTransaction.write (t : PointsTransaction) : Option PointsWrite :=
  match t.operation, t.totalConsume with
  | .convertPointsFromConsumption, none => none
  | .convertPointsFromConsumption, some totalConsume =>
      let newConsume := newConvertableConsume totalConsume t.userPoints.convertedConsume
      if newConsume ≤ 0 then none
      else
        let newPoints := newConsume / 1000000
        some { points := newPoints, totalEarned := newPoints
               convertedConsume := some (roundCurrency ((totalConsume : ℚ) / 1000000))
               type := .convert }
  | .deductPoints amount, _ =>
      some { points := -amount, totalSpent := amount, type := .lotterySpend }
  | .addPoints amount type, _ => some { points := amount, totalEarned := amount, type }
  | .adminAdjustPoints amount, _ =>
      some { points := amount
             totalEarned := if 0 < amount then amount else 0
             totalSpent := if amount < 0 then |amount| else 0
             type := .adminAdjust }

/-- The increments of a write, and the mark it sets. -/
def UserPoints.apply (userPoints : UserPoints) (write : PointsWrite) : UserPoints :=
  { points := userPoints.points + write.points
    totalEarned := userPoints.totalEarned + write.totalEarned
    totalSpent := userPoints.totalSpent + write.totalSpent
    convertedConsume := write.convertedConsume.getD userPoints.convertedConsume }

namespace PointsWorld

variable (w : PointsWorld)

/-- The account; a row that is not there counts as a new one. -/
def account : UserPoints := w.userPoints.getD {}

/-- The statements of a transaction after its reads, on the row as it is now. -/
def commit (t : PointsTransaction) : PointsWorld :=
  let transactions := w.transactions.erase t
  match t.write with
  | none => { w with transactions }
  | some write =>
      let updatedPoints := w.account.apply write
      { w with
        userPoints := some updatedPoints
        pointsLogs := w.pointsLogs ++
          [{ type := write.type
             amount := write.points
             pointsBefore := t.userPoints.points
             pointsAfter := updatedPoints.points }]
        conversions :=
          match t.operation with
          | .convertPointsFromConsumption =>
              { start := t.userPoints.convertedConsume
                stop := t.userPoints.convertedConsume + write.points } :: w.conversions
          | _ => w.conversions
        transactions }

end PointsWorld

inductive PointsEvent
  /-- a balance log of consumption is committed -/
  | consume (log : ConsumeLog)
  /-- a transaction reads the account, which it creates if there is none -/
  | begin (operation : PointsOperation)
  /-- a conversion sums up the consumption -/
  | sumConsume (t : PointsTransaction)
  | commit (t : PointsTransaction)
  | abort (t : PointsTransaction)
deriving DecidableEq, Repr

def pointsStep (w : PointsWorld) : PointsEvent → Option PointsWorld
  | .consume log => some { w with consumes := w.consumes ++ [log] }
  | .begin operation =>
      match operation, w.userPoints with
      | .deductPoints _, none => some w
      | _, _ =>
          let read : PointsTransaction := { operation, userPoints := w.account }
          some { w with
            userPoints := some w.account
            transactions :=
              if operation.passes w.account then read :: w.transactions else w.transactions }
  | .sumConsume t =>
      if t ∈ w.transactions ∧ t.operation = .convertPointsFromConsumption then
        let summed := { t with totalConsume := some (getUserTotalConsume w.consumes) }
        some { w with transactions := summed :: w.transactions.erase t }
      else none
  | .commit t => if t ∈ w.transactions then some (w.commit t) else none
  | .abort t =>
      if t ∈ w.transactions then some { w with transactions := w.transactions.erase t } else none

/-! ## The condition on a write -/

/-- The check of the transaction holds of the row as well: enough points for what
it takes, and for a conversion the mark it has read. -/
def PointsTransaction.holdsOf (t : PointsTransaction) (account : UserPoints) : Bool :=
  t.operation.passes account &&
    match t.operation with
    | .convertPointsFromConsumption =>
        account.convertedConsume == t.userPoints.convertedConsume
    | .addPoints amount _ => decide (0 ≤ amount) || decide (0 ≤ account.points + amount)
    | _ => true

def writesChecked (w : PointsWorld) : PointsEvent → Bool
  | .commit t => t.holdsOf w.account
  | _ => true

/-! ## What a write keeps -/

section Writes

variable {w w' : PointsWorld} {t : PointsTransaction} {write : PointsWrite} {event : PointsEvent}
  {account : UserPoints}

theorem consumed_nonneg (log : ConsumeLog) : 0 ≤ log.consumed := by
  unfold ConsumeLog.consumed
  split
  · rename_i hfall
    exact sub_nonneg.mpr hfall.le
  · exact abs_nonneg _

theorem getUserTotalConsume_append (logs : List ConsumeLog) (log : ConsumeLog) :
    getUserTotalConsume logs ≤ getUserTotalConsume (logs ++ [log]) := by
  simp only [getUserTotalConsume, List.map_append, List.map_cons, List.map_nil, List.sum_append,
    List.sum_cons, List.sum_nil, add_zero]
  exact le_add_of_nonneg_right (consumed_nonneg log)

/-- A write changes points and totals together. -/
theorem write_balance (h : t.write = some write) :
    write.points = write.totalEarned - write.totalSpent := by
  unfold PointsTransaction.write at h
  split at h
  · cases h
  · simp only at h
    split at h
    · cases h
    · obtain rfl := Option.some.inj h
      exact (sub_zero _).symm
  · obtain rfl := Option.some.inj h
    exact (zero_sub _).symm
  · obtain rfl := Option.some.inj h
    exact (sub_zero _).symm
  · rename_i amount _
    obtain rfl := Option.some.inj h
    rcases lt_trichotomy amount 0 with hneg | rfl | hpos
    · simp [hneg, not_lt.mpr hneg.le, abs_of_neg hneg]
    · simp
    · simp [hpos, not_lt.mpr hpos.le]

theorem apply_balance (hbalance : account.points = account.totalEarned - account.totalSpent)
    (h : t.write = some write) :
    (account.apply write).points
      = (account.apply write).totalEarned - (account.apply write).totalSpent := by
  have hmoves := write_balance h
  simp only [UserPoints.apply]
  linarith

/-- The log of a write makes up for what it adds to the points. -/
theorem apply_logged {logs : List PointsLog} (log : PointsLog)
    (hlogged : account.points = (logs.map PointsLog.amount).sum)
    (hamount : log.amount = write.points) :
    (account.apply write).points = ((logs ++ [log]).map PointsLog.amount).sum := by
  simp only [UserPoints.apply, List.map_append, List.sum_append, List.map_cons, List.map_nil,
    List.sum_cons, List.sum_nil, hamount, ← hlogged, add_zero]

/-- From a mark on, the whole cents of the rest lead to the whole cents of the total. -/
theorem mark_add_rest (totalConsume mark : ℤ) :
    mark + (totalConsume - mark * 1000000) / 1000000 = totalConsume / 1000000 := by
  omega

/-- A conversion converts the cents from the mark it has read up to the whole
cents of the consumption it has summed up, and sets the mark there or above. -/
theorem write_convert {totalConsume : Units}
    (hoperation : t.operation = .convertPointsFromConsumption)
    (htotal : t.totalConsume = some totalConsume) (h : t.write = some write) :
    ∃ mark, write.convertedConsume = some mark ∧ 0 ≤ write.points ∧
      t.userPoints.convertedConsume + write.points ≤ mark ∧
      toUnits (t.userPoints.convertedConsume + write.points) ≤ totalConsume := by
  simp only [PointsTransaction.write, hoperation, htotal] at h
  split at h
  · cases h
  · rename_i hnew
    obtain rfl := Option.some.inj h
    simp only [newConvertableConsume, toUnits, not_le] at hnew ⊢
    generalize t.userPoints.convertedConsume = mark at *
    have hstop := mark_add_rest totalConsume mark
    refine ⟨_, rfl, Int.ediv_nonneg hnew.le (by norm_num), ?_, ?_⟩
    · rw [hstop]
      have hle : ((totalConsume / 1000000 : ℤ) : ℚ) ≤ (totalConsume : ℚ) / 1000000 := by
        rw [le_div_iff₀ (by norm_num)]
        exact_mod_cast Int.ediv_mul_le totalConsume (by norm_num)
      simpa only [roundCurrency, Rounding.halfAway_intCast] using Rounding.halfAway_mono hle
    · rw [hstop]
      exact Int.ediv_mul_le totalConsume (by norm_num)

/-- Only a conversion sets the mark. -/
theorem write_mark (hoperation : t.operation ≠ .convertPointsFromConsumption)
    (h : t.write = some write) : write.convertedConsume = none := by
  unfold PointsTransaction.write at h
  split at h
  · cases h
  · rename_i hconvert _
    exact absurd hconvert hoperation
  · rw [← Option.some.inj h]
  · rw [← Option.some.inj h]
  · rw [← Option.some.inj h]

/-- Where the check holds of the row, its points stay above zero. -/
theorem points_nonneg_of_holds (hpoints : 0 ≤ account.points) (hholds : t.holdsOf account = true)
    (h : t.write = some write) : 0 ≤ (account.apply write).points := by
  simp only [PointsTransaction.holdsOf, PointsOperation.passes, Bool.and_eq_true] at hholds
  simp only [UserPoints.apply]
  unfold PointsTransaction.write at h
  split at h
  · cases h
  · rename_i total hconvert htotal
    have hwrite : t.write = some write := by
      simpa only [PointsTransaction.write, hconvert, htotal] using h
    obtain ⟨mark, -, hnonneg, -⟩ := write_convert hconvert htotal hwrite
    exact add_nonneg hpoints hnonneg
  · rename_i amount hdeduct
    obtain rfl := Option.some.inj h
    simp only [hdeduct, decide_eq_true_eq, and_true] at hholds
    exact sub_nonneg.mpr hholds
  · rename_i amount type hadd
    obtain rfl := Option.some.inj h
    simp only [hadd, Bool.or_eq_true, decide_eq_true_eq, true_and] at hholds
    rcases hholds with hnonneg | henough
    · exact add_nonneg hpoints hnonneg
    · exact henough
  · rename_i amount hadjust
    obtain rfl := Option.some.inj h
    simp only [hadjust, Bool.not_eq_true', Bool.and_eq_false_iff, decide_eq_false_iff_not,
      not_lt, and_true] at hholds
    rcases hholds with hnonneg | henough
    · exact add_nonneg hpoints hnonneg
    · exact henough

end Writes

/-! ## The invariant -/

/-- The conversions, newest first, convert the consumption from the bottom up. -/
structure PointsInv (w : PointsWorld) : Prop where
  balance : w.account.points = w.account.totalEarned - w.account.totalSpent
  logged : w.account.points = (w.pointsLogs.map PointsLog.amount).sum
  nonneg : 0 ≤ w.account.points
  marks : ∀ c ∈ w.conversions, c.stop ≤ w.account.convertedConsume
  ordered : ∀ c ∈ w.conversions, c.start ≤ c.stop
  within : ∀ c ∈ w.conversions, toUnits c.stop ≤ getUserTotalConsume w.consumes
  disjoint : w.conversions.Pairwise fun later earlier => earlier.stop ≤ later.start
  sums : ∀ t ∈ w.transactions, ∀ totalConsume, t.totalConsume = some totalConsume →
    totalConsume ≤ getUserTotalConsume w.consumes

namespace PointsInv

variable {w w' : PointsWorld} {t : PointsTransaction} {write : PointsWrite} {event : PointsEvent}

/-- More consumption leaves all that was converted within it. -/
theorem consume (hinv : PointsInv w) (log : ConsumeLog) :
    PointsInv { w with consumes := w.consumes ++ [log] } := by
  have hmore := getUserTotalConsume_append w.consumes log
  refine ⟨hinv.balance, hinv.logged, hinv.nonneg, hinv.marks, hinv.ordered, ?_, hinv.disjoint, ?_⟩
  · intro c hc
    exact (hinv.within c hc).trans hmore
  · intro t ht totalConsume htotal
    exact (hinv.sums t ht totalConsume htotal).trans hmore

/-- What a step does to the open transactions alone. -/
theorem retransact (hinv : PointsInv w) {userPoints : Option UserPoints}
    {transactions : List PointsTransaction} (haccount : userPoints.getD {} = w.account)
    (hsums : ∀ t ∈ transactions, ∀ totalConsume, t.totalConsume = some totalConsume →
      totalConsume ≤ getUserTotalConsume w.consumes) :
    PointsInv { w with userPoints, transactions } := by
  have haccount' : PointsWorld.account { w with userPoints, transactions } = w.account := haccount
  refine ⟨?_, ?_, ?_, ?_, hinv.ordered, hinv.within, hinv.disjoint, hsums⟩
  · rw [haccount']
    exact hinv.balance
  · rw [haccount']
    exact hinv.logged
  · rw [haccount']
    exact hinv.nonneg
  · rw [haccount']
    exact hinv.marks

theorem sums_erase (hinv : PointsInv w) : ∀ u ∈ w.transactions.erase t, ∀ totalConsume,
    u.totalConsume = some totalConsume → totalConsume ≤ getUserTotalConsume w.consumes :=
  fun u hu => hinv.sums u (List.mem_of_mem_erase hu)

/-- A commit whose check holds of the row keeps the account in order. -/
theorem commit (hinv : PointsInv w) (ht : t ∈ w.transactions)
    (hholds : t.holdsOf w.account = true) : PointsInv (w.commit t) := by
  cases hwrite : t.write with
  | none =>
      simp only [PointsWorld.commit, hwrite]
      exact hinv.retransact rfl hinv.sums_erase
  | some write =>
      simp only [PointsWorld.commit, hwrite]
      have hpoints := points_nonneg_of_holds hinv.nonneg hholds hwrite
      have hbalance := apply_balance hinv.balance hwrite
      have hlogged : ∀ log : PointsLog, log.amount = write.points →
          (w.account.apply write).points
            = ((w.pointsLogs ++ [log]).map PointsLog.amount).sum :=
        fun log hamount => apply_logged log hinv.logged hamount
      by_cases hconvert : t.operation = .convertPointsFromConsumption
      · obtain ⟨totalConsume, htotal⟩ : ∃ totalConsume, t.totalConsume = some totalConsume := by
          refine Option.ne_none_iff_exists'.mp fun hnone => ?_
          simp [PointsTransaction.write, hconvert, hnone] at hwrite
        obtain ⟨mark, hmark, hnew, hle, hwithin⟩ := write_convert hconvert htotal hwrite
        have hread : w.account.convertedConsume = t.userPoints.convertedConsume := by
          simpa [PointsTransaction.holdsOf, PointsOperation.passes, hconvert] using hholds
        have hsum := hinv.sums t ht totalConsume htotal
        -- the mark only rises: it was read at the row it is written to
        have hrises : w.account.convertedConsume ≤ mark := by
          rw [hread]
          exact (le_add_of_nonneg_right hnew).trans hle
        simp only [hconvert]
        refine ⟨hbalance, hlogged _ rfl, hpoints, ?_, ?_, ?_, ?_, hinv.sums_erase⟩
        · intro c hc
          simp only [PointsWorld.account, Option.getD_some, UserPoints.apply, hmark]
          rcases List.mem_cons.mp hc with rfl | hc
          · exact hle
          · exact (hinv.marks c hc).trans hrises
        · intro c hc
          rcases List.mem_cons.mp hc with rfl | hc
          · exact le_add_of_nonneg_right hnew
          · exact hinv.ordered c hc
        · intro c hc
          rcases List.mem_cons.mp hc with rfl | hc
          · exact hwithin.trans hsum
          · exact hinv.within c hc
        · refine List.pairwise_cons.mpr ⟨fun c hc => ?_, hinv.disjoint⟩
          exact (hinv.marks c hc).trans hread.le
      · have hmark := write_mark hconvert hwrite
        have hconversions : (match t.operation with
            | .convertPointsFromConsumption =>
                { start := t.userPoints.convertedConsume
                  stop := t.userPoints.convertedConsume + write.points } :: w.conversions
            | _ => w.conversions) = w.conversions := by
          split
          · rename_i hop
            exact absurd hop hconvert
          · rfl
        rw [hconversions]
        refine ⟨hbalance, hlogged _ rfl, hpoints, ?_, hinv.ordered, hinv.within, hinv.disjoint,
          hinv.sums_erase⟩
        · intro c hc
          simp only [PointsWorld.account, Option.getD_some, UserPoints.apply, hmark,
            Option.getD_none]
          exact hinv.marks c hc

theorem step (hinv : PointsInv w) (hchecked : writesChecked w event = true)
    (h : pointsStep w event = some w') : PointsInv w' := by
  cases event with
  | consume log =>
      obtain rfl := Option.some.inj h
      exact hinv.consume log
  | begin operation =>
      simp only [pointsStep] at h
      split at h
      · obtain rfl := Option.some.inj h
        exact hinv
      · obtain rfl := Option.some.inj h
        refine hinv.retransact rfl fun t ht totalConsume htotal => ?_
        split at ht
        · rcases List.mem_cons.mp ht with rfl | ht
          · cases htotal
          · exact hinv.sums t ht totalConsume htotal
        · exact hinv.sums t ht totalConsume htotal
  | sumConsume t =>
      simp only [pointsStep] at h
      split at h
      · obtain rfl := Option.some.inj h
        refine hinv.retransact rfl fun u hu totalConsume htotal => ?_
        rcases List.mem_cons.mp hu with rfl | hu
        · exact (Option.some.inj htotal).ge
        · exact hinv.sums_erase u hu totalConsume htotal
      · cases h
  | commit t =>
      simp only [pointsStep] at h
      split at h
      · rename_i ht
        obtain rfl := Option.some.inj h
        exact hinv.commit ht hchecked
      · cases h
  | abort t =>
      simp only [pointsStep] at h
      split at h
      · obtain rfl := Option.some.inj h
        exact hinv.retransact rfl hinv.sums_erase
      · cases h

end PointsInv

/-! ## Over whole runs -/

/-- Before the first operation: no account, and nothing under way. -/
structure PointsWorld.Start (w : PointsWorld) : Prop where
  userPoints : w.userPoints = none
  pointsLogs : w.pointsLogs = []
  conversions : w.conversions = []
  transactions : w.transactions = []

/-- Points are not negative and are what was earned less what was spent, and what
the log says; what the conversions convert is consumption, and no cent of it twice. -/
structure PointsKept (w : PointsWorld) : Prop where
  nonneg : 0 ≤ w.account.points
  balance : w.account.points = w.account.totalEarned - w.account.totalSpent
  logged : w.account.points = (w.pointsLogs.map PointsLog.amount).sum
  once : w.conversions.Pairwise fun later earlier => earlier.stop ≤ later.start
  ordered : ∀ c ∈ w.conversions, c.start ≤ c.stop
  within : ∀ c ∈ w.conversions, toUnits c.stop ≤ getUserTotalConsume w.consumes

theorem PointsWorld.Start.inv {w : PointsWorld} (h : w.Start) : PointsInv w := by
  constructor <;> simp [PointsWorld.account, h.userPoints, h.pointsLogs, h.conversions,
    h.transactions]

/-- In every run in which what a write has checked holds of the row it writes to. -/
theorem points_kept {w₀ w : PointsWorld} (h₀ : w₀.Start)
    (h : Machine.Reach pointsStep (fun w event => writesChecked w event = true) w₀ w) :
    PointsKept w := by
  have hinv : PointsInv w := by
    refine h.invariant (P := PointsInv) h₀.inv ?_
    intro v v' event hinv hchecked hstep
    exact hinv.step hchecked hstep
  exact ⟨hinv.nonneg, hinv.balance, hinv.logged, hinv.disjoint, hinv.ordered, hinv.within⟩

/-! ### Two runs -/

/-- A transaction of the operation on the points it has read. -/
def PointsOperation.after (operation : PointsOperation) (points totalEarned : ℤ) :
    PointsTransaction where
  operation
  userPoints := { points, totalEarned }

theorem emptyPointsWorld_start : PointsWorld.Start {} := ⟨rfl, rfl, rfl, rfl⟩

/-- Ten yuan are consumed and converted, half of the points go into a draw, and
five more yuan are converted. -/
theorem points_kept_converted : ∃ w : PointsWorld,
    w.account = { points := 1000, totalEarned := 1500, totalSpent := 500
                  convertedConsume := 1500 } ∧
    w.conversions = [⟨1000, 1500⟩, ⟨0, 1000⟩] ∧ PointsKept w := by
  let convert : PointsTransaction :=
    { operation := .convertPointsFromConsumption, userPoints := {} }
  let again : PointsTransaction :=
    { convert with userPoints :=
        { points := 500, totalEarned := 1000, totalSpent := 500, convertedConsume := 1000 } }
  have hrun : (Machine.exec (Machine.guarded pointsStep writesChecked) {}
      [.consume ⟨1000000000, 2000000000, 1000000000⟩, .begin .convertPointsFromConsumption,
        .sumConsume convert, .commit { convert with totalConsume := some 1000000000 },
        .begin (.deductPoints 500),
        .commit { operation := .deductPoints 500
                  userPoints := { points := 1000, totalEarned := 1000, convertedConsume := 1000 } },
        .consume ⟨-500000000, 1000000000, 500000000⟩, .begin .convertPointsFromConsumption,
        .sumConsume again, .commit { again with totalConsume := some 1500000000 }]).map
      (fun w => (w.account, w.conversions))
      = some ({ points := 1000, totalEarned := 1500, totalSpent := 500, convertedConsume := 1500 },
          [⟨1000, 1500⟩, ⟨0, 1000⟩]) := by decide +kernel
  obtain ⟨w, hw, hvalues⟩ := Option.map_eq_some_iff.mp hrun
  obtain ⟨haccount, hconversions⟩ := Prod.mk.inj hvalues
  exact ⟨w, haccount, hconversions,
    points_kept emptyPointsWorld_start (Machine.reach_of_exec_guarded hw)⟩

/-- Two draws of 100 points find the same 100 points, and both take them. -/
theorem deductions_overdraw : ∃ w : PointsWorld, Machine.Reach pointsStep Machine.free {} w ∧
    w.account.points = -100 ∧ ¬PointsKept w := by
  let add : PointsTransaction := (PointsOperation.addPoints 100 .checkin).after 0 0
  let draw : PointsTransaction := (PointsOperation.deductPoints 100).after 100 100
  have hrun : (Machine.exec pointsStep {}
      [.begin (.addPoints 100 .checkin), .commit add, .begin (.deductPoints 100),
        .begin (.deductPoints 100), .commit draw, .commit draw]).map
      (fun w => w.account.points) = some (-100) := by decide +kernel
  obtain ⟨w, hw, hpoints⟩ := Option.map_eq_some_iff.mp hrun
  refine ⟨w, Machine.reach_of_exec hw, hpoints, fun hkept => ?_⟩
  exact absurd hkept.nonneg (by rw [hpoints]; decide)

end Incudal
