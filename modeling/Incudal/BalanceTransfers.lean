/-
# `BalanceTransfers` — one user sends another a part of his balance

Balances have eight decimals, a transfer counts in cents.  The amounts and the
balances after each step are rounded to cents, and the rounded balances are
what is written.  A preview makes the same checks and shows the same sums
(`preview_of_transfer`).

A transfer that is refused leaves everything as it was.  One that goes through
moves what it says just when both balances are whole cents, and then it stays
within the bounds as long as they did (`balance_transfer_iff`): with a fraction
of a cent in a balance, rounding adds to it or takes from it.
-/
import Incudal.Basic
import Incudal.Lib.Chained
import Mathlib.Algebra.Order.Floor.Ring
import Mathlib.Data.Rat.Floor
import Mathlib.Tactic.Linarith
import Mathlib.Tactic.NormNum
import Mathlib.Tactic.Ring

namespace Incudal.BalanceTransfer

/-! ## The rows -/

/-- `UserStatus`. -/
inductive UserStatus
  | active | banned
deriving DecidableEq, Repr

/-- What a transfer reads of a user. -/
structure User where
  username : String := ""
  email : Option String := none
  avatarStyle : Option String := none
  avatarBadgeId : Option ℕ := none
  status : UserStatus := .active
  balance : Units
deriving DecidableEq, Repr

/-- The types of log that a transfer writes. -/
inductive LogType
  | balanceTransferOut | balanceTransferFee | balanceTransferIn
deriving DecidableEq, Repr

/-- A row of the balance log. -/
structure Log where
  userId : ℕ
  type : LogType
  amount : Units
  balanceBefore : Units
  balanceAfter : Units
  orderId : String
  remark : String
deriving DecidableEq, Repr

structure Db where
  users : ℕ → Option User
  balanceLogs : List Log := []

/-- What the caller passes; an amount that is no finite number is `none`. -/
structure Input where
  fromUserId : ℕ
  recipientId : ℕ
  amount : Option ℚ
  fee : Option ℚ
deriving DecidableEq, Repr

structure Recipient where
  id : ℕ
  username : String
  email : Option String
  avatarStyle : Option String
  avatarBadgeId : Option ℕ
deriving DecidableEq, Repr

/-- `BalanceTransferPreview`. -/
structure Preview where
  fromUserId : ℕ
  recipient : Recipient
  amount : Cents
  fee : Cents
  totalDeduction : Cents
  currentBalance : Units
  balanceAfter : Cents
deriving DecidableEq, Repr

/-! ## Amounts -/

/-- `MAX_USER_BALANCE`. -/
def maxUserBalance : Cents := 9999999999

/-- `Number.EPSILON`. -/
def epsilon : ℚ := 1 / 2 ^ 52

/-- `Math.round`. -/
def mathRound (value : ℚ) : ℤ := ⌊value + 1 / 2⌋

/-- `roundMoney`: an amount in yuan, to cents. -/
def roundMoney (value : ℚ) : Cents := mathRound ((value + epsilon) * 100)

def hasAtMostTwoDecimalPlaces (value : ℚ) : Bool :=
  decide (|value * 100 - mathRound (value * 100)| < 1 / 1000000000)

/-- A column with eight decimals, in yuan. -/
def ofUnits (balance : Units) : ℚ := balance / 100000000

/-- Cents, in yuan. -/
def ofCents (amount : Cents) : ℚ := amount / 100

def normalizeBalanceTransferAmount (value : Option ℚ) : Except String Cents :=
  match value with
  | none => .error "BALANCE_TRANSFER_AMOUNT_INVALID"
  | some amount =>
      if amount < 1 / 100 ∨ ofCents maxUserBalance < amount ∨ !hasAtMostTwoDecimalPlaces amount then
        .error "BALANCE_TRANSFER_AMOUNT_INVALID"
      else .ok (roundMoney amount)

def normalizeBalanceTransferFee (value : Option ℚ) : Except String Cents :=
  match value with
  | none => .error "BALANCE_TRANSFER_AMOUNT_INVALID"
  | some fee =>
      if fee < 0 ∨ ofCents maxUserBalance < fee ∨ !hasAtMostTwoDecimalPlaces fee then
        .error "BALANCE_TRANSFER_AMOUNT_INVALID"
      else .ok (roundMoney fee)

/-! ## Preview and transfer -/

def User.toRecipient (user : User) (id : ℕ) : Recipient where
  id := id
  username := user.username
  email := user.email
  avatarStyle := user.avatarStyle
  avatarBadgeId := user.avatarBadgeId

/-- `buildBalanceTransferPreview`. -/
def buildBalanceTransferPreview (db : Db) (input : Input) : Except String Preview :=
  match normalizeBalanceTransferAmount input.amount with
  | .error message => .error message
  | .ok amount =>
    match normalizeBalanceTransferFee input.fee with
    | .error message => .error message
    | .ok fee =>
      if input.fromUserId = input.recipientId then .error "BALANCE_TRANSFER_TO_SELF"
      else
        match db.users input.fromUserId, db.users input.recipientId with
        | some sender, some recipient =>
            if recipient.status = .banned then .error "BALANCE_TRANSFER_RECIPIENT_BANNED"
            else if maxUserBalance < roundMoney (ofUnits recipient.balance + ofCents amount) then
              .error "BALANCE_TRANSFER_BALANCE_LIMIT_EXCEEDED"
            else
              let totalDeduction := roundMoney (ofCents amount + ofCents fee)
              let balanceAfter := roundMoney (ofUnits sender.balance - ofCents totalDeduction)
              if balanceAfter < 0 then .error "BALANCE_TRANSFER_INSUFFICIENT_BALANCE"
              else
                .ok
                  { fromUserId := input.fromUserId
                    recipient := recipient.toRecipient input.recipientId
                    amount, fee, totalDeduction
                    currentBalance := sender.balance
                    balanceAfter }
        | _, _ => .error "USER_NOT_FOUND"

/-- `tx.user.update` of the balance. -/
def Db.setBalance (db : Db) (id : ℕ) (balance : Cents) : Db where
  users := Function.update db.users id
    ((db.users id).map fun user => { user with balance := toUnits balance })
  balanceLogs := db.balanceLogs

@[simp] theorem Db.setBalance_self (db : Db) (id : ℕ) (balance : Cents) :
    (db.setBalance id balance).users id =
      (db.users id).map fun user => { user with balance := toUnits balance } :=
  Function.update_self ..

@[simp] theorem Db.setBalance_of_ne (db : Db) {id k : ℕ} (balance : Cents) (h : k ≠ id) :
    (db.setBalance id balance).users k = db.users k :=
  Function.update_of_ne h ..

def Db.createLog (db : Db) (log : Log) : Db := { db with balanceLogs := db.balanceLogs ++ [log] }

/-- The writes of a transfer. -/
def writeTransfer (db : Db) (input : Input) (transferNo : String) (sender recipient : User)
    (amount fee senderBalanceAfterTransfer senderBalanceAfterFee recipientBalanceAfter : Cents) :
    Db :=
  let db := db.setBalance input.fromUserId senderBalanceAfterFee
  let db := db.setBalance input.recipientId recipientBalanceAfter
  let db := db.createLog
    { userId := input.fromUserId, type := .balanceTransferOut, amount := -toUnits amount
      balanceBefore := sender.balance, balanceAfter := toUnits senderBalanceAfterTransfer
      orderId := transferNo, remark := s!"转账给 {recipient.username}" }
  let db :=
    if 0 < fee then
      db.createLog
        { userId := input.fromUserId, type := .balanceTransferFee, amount := -toUnits fee
          balanceBefore := toUnits senderBalanceAfterTransfer
          balanceAfter := toUnits senderBalanceAfterFee
          orderId := transferNo, remark := "余额转账手续费" }
    else db
  db.createLog
    { userId := input.recipientId, type := .balanceTransferIn, amount := toUnits amount
      balanceBefore := recipient.balance, balanceAfter := toUnits recipientBalanceAfter
      orderId := transferNo, remark := s!"收到 {sender.username} 转账" }

/-- The transaction of `transferBalanceBetweenUsers`. -/
def transferTransaction (input : Input) (transferNo : String) (amount fee : Cents) (db : Db) :
    Except String (Db × Preview) :=
  match db.users input.fromUserId, db.users input.recipientId with
  | some sender, some recipient =>
      if recipient.status = .banned then .error "BALANCE_TRANSFER_RECIPIENT_BANNED"
      else
        let totalDeduction := roundMoney (ofCents amount + ofCents fee)
        let senderBalanceAfterTransfer := roundMoney (ofUnits sender.balance - ofCents amount)
        let senderBalanceAfterFee := roundMoney (ofCents senderBalanceAfterTransfer - ofCents fee)
        if senderBalanceAfterFee < 0 then .error "BALANCE_TRANSFER_INSUFFICIENT_BALANCE"
        else
          let recipientBalanceAfter := roundMoney (ofUnits recipient.balance + ofCents amount)
          if maxUserBalance < recipientBalanceAfter then
            .error "BALANCE_TRANSFER_BALANCE_LIMIT_EXCEEDED"
          else
            .ok (writeTransfer db input transferNo sender recipient amount fee
                  senderBalanceAfterTransfer senderBalanceAfterFee recipientBalanceAfter,
              { fromUserId := input.fromUserId
                recipient := recipient.toRecipient input.recipientId
                amount, fee, totalDeduction
                currentBalance := sender.balance
                balanceAfter := senderBalanceAfterFee })
  | _, _ => .error "USER_NOT_FOUND"

/-- `runBalanceTransaction`: at most three attempts, of which the database aborts the first
`aborted` with a conflict.  What is thrown rolls back. -/
def runBalanceTransaction {α : Type*} (aborted : ℕ) (handler : Db → Except String (Db × α))
    (db : Db) : Db × Except String α :=
  if 3 ≤ aborted then (db, .error "could not serialize")
  else
    match handler db with
    | .error message => (db, .error message)
    | .ok (db', result) => (db', .ok result)

/-- `transferBalanceBetweenUsers`. -/
def transferBalanceBetweenUsers (aborted : ℕ) (db : Db) (input : Input) (transferNo : String) :
    Db × Except String Preview :=
  match normalizeBalanceTransferAmount input.amount with
  | .error message => (db, .error message)
  | .ok amount =>
    match normalizeBalanceTransferFee input.fee with
    | .error message => (db, .error message)
    | .ok fee =>
      if input.fromUserId = input.recipientId then (db, .error "BALANCE_TRANSFER_TO_SELF")
      else runBalanceTransaction aborted (transferTransaction input transferNo amount fee) db

/-! ## Rounding to cents -/

/-- Rounding to cents moves along with whole cents. -/
theorem roundMoney_sub_ofCents (value : ℚ) (c : Cents) :
    roundMoney (value - ofCents c) = roundMoney value - c := by
  have hshift : (value - ofCents c + epsilon) * 100 + 1 / 2 =
      ((value + epsilon) * 100 + 1 / 2) - c := by
    unfold ofCents
    ring
  show ⌊(value - ofCents c + epsilon) * 100 + 1 / 2⌋ = ⌊(value + epsilon) * 100 + 1 / 2⌋ - c
  rw [hshift, Int.floor_sub_intCast]

theorem roundMoney_add_ofCents (value : ℚ) (c : Cents) :
    roundMoney (value + ofCents c) = roundMoney value + c := by
  have hneg : ofCents (-c) = -ofCents c := by
    unfold ofCents
    push_cast
    ring
  have hsub := roundMoney_sub_ofCents value (-c)
  rwa [hneg, sub_neg_eq_add, sub_neg_eq_add] at hsub

theorem roundMoney_zero : roundMoney 0 = 0 := by
  rw [roundMoney, mathRound, Int.floor_eq_iff]
  norm_num [epsilon]

@[simp] theorem roundMoney_ofCents (c : Cents) : roundMoney (ofCents c) = c := by
  have hzero := roundMoney_add_ofCents 0 c
  rwa [zero_add, roundMoney_zero, zero_add] at hzero

theorem roundMoney_nonneg {value : ℚ} (h : 0 ≤ value) : 0 ≤ roundMoney value := by
  have hepsilon : (0 : ℚ) ≤ epsilon := by norm_num [epsilon]
  exact Int.floor_nonneg.mpr (by linarith)

/-- Whole cents are accepted as they are. -/
theorem hasAtMostTwoDecimalPlaces_ofCents (c : Cents) :
    hasAtMostTwoDecimalPlaces (ofCents c) = true := by
  have hscaled : ofCents c * 100 = c := by
    unfold ofCents
    ring
  have hround : mathRound (c : ℚ) = c := by
    rw [mathRound, Int.floor_eq_iff]
    constructor <;> linarith
  refine decide_eq_true ?_
  rw [hscaled, hround, sub_self, abs_zero]
  norm_num

theorem ofCents_mono {a b : Cents} (h : a ≤ b) : ofCents a ≤ ofCents b := by
  have hcast : (a : ℚ) ≤ b := by exact_mod_cast h
  exact div_le_div_of_nonneg_right hcast (by norm_num)

theorem normalizeBalanceTransferAmount_ofCents {c : Cents} (hpos : 1 ≤ c)
    (hle : c ≤ maxUserBalance) : normalizeBalanceTransferAmount (some (ofCents c)) = .ok c := by
  have hleast : (1 : ℚ) / 100 ≤ ofCents c := by
    have hone : ofCents 1 = 1 / 100 := by norm_num [ofCents]
    exact hone ▸ ofCents_mono hpos
  simp only [normalizeBalanceTransferAmount, hasAtMostTwoDecimalPlaces_ofCents, roundMoney_ofCents,
    not_lt.mpr hleast, not_lt.mpr (ofCents_mono hle), Bool.not_true, Bool.false_eq_true, or_self,
    if_false]

theorem normalizeBalanceTransferFee_ofCents {c : Cents} (hnonneg : 0 ≤ c)
    (hle : c ≤ maxUserBalance) : normalizeBalanceTransferFee (some (ofCents c)) = .ok c := by
  have hleast : 0 ≤ ofCents c := by
    have hzero : ofCents 0 = 0 := by norm_num [ofCents]
    exact hzero ▸ ofCents_mono hnonneg
  simp only [normalizeBalanceTransferFee, hasAtMostTwoDecimalPlaces_ofCents, roundMoney_ofCents,
    not_lt.mpr hleast, not_lt.mpr (ofCents_mono hle), Bool.not_true, Bool.false_eq_true, or_self,
    if_false]

theorem fee_nonneg {value : Option ℚ} {fee : Cents}
    (h : normalizeBalanceTransferFee value = .ok fee) : 0 ≤ fee := by
  unfold normalizeBalanceTransferFee at h
  split at h
  · cases h
  rename_i parsed
  split at h
  · cases h
  · rename_i hvalid
    obtain rfl := Except.ok.inj h
    exact roundMoney_nonneg (not_lt.mp fun hneg => hvalid (.inl hneg))

/-- A balance of whole cents is rounded to itself, and no other is. -/
theorem toUnits_roundMoney_iff (balance : Units) :
    toUnits (roundMoney (ofUnits balance)) = balance ↔ 1000000 ∣ balance := by
  constructor
  · intro h
    rw [← h]
    exact Dvd.intro_left _ rfl
  · rintro ⟨c, rfl⟩
    have hcents : ofUnits (1000000 * c) = ofCents c := by
      unfold ofUnits ofCents
      push_cast
      ring
    rw [hcents, roundMoney_ofCents, toUnits, mul_comm]

/-! ## When a transfer goes through -/

section Transfer

variable {db db' : Db} {input : Input} {transferNo : String} {sender recipient : User}
  {amount fee : Cents} {preview : Preview} {aborted : ℕ}

/-- All the checks, with the balances rounded to cents. -/
structure Agreed (db : Db) (input : Input) (sender recipient : User) (amount fee : Cents) :
    Prop where
  amountOk : normalizeBalanceTransferAmount input.amount = .ok amount
  feeOk : normalizeBalanceTransferFee input.fee = .ok fee
  notSelf : input.fromUserId ≠ input.recipientId
  senderRow : db.users input.fromUserId = some sender
  recipientRow : db.users input.recipientId = some recipient
  notBanned : recipient.status ≠ .banned
  within : roundMoney (ofUnits recipient.balance) + amount ≤ maxUserBalance
  enough : 0 ≤ roundMoney (ofUnits sender.balance) - amount - fee

/-- What is shown of a transfer. -/
def agreedPreview (input : Input) (sender recipient : User) (amount fee : Cents) : Preview where
  fromUserId := input.fromUserId
  recipient := recipient.toRecipient input.recipientId
  amount := amount
  fee := fee
  totalDeduction := amount + fee
  currentBalance := sender.balance
  balanceAfter := roundMoney (ofUnits sender.balance) - amount - fee

theorem preview_ok_iff :
    buildBalanceTransferPreview db input = .ok preview ↔
      ∃ sender recipient amount fee, Agreed db input sender recipient amount fee ∧
        preview = agreedPreview input sender recipient amount fee := by
  constructor
  · intro h
    unfold buildBalanceTransferPreview at h
    split at h
    · cases h
    rename_i amount hamount
    split at h
    · cases h
    rename_i fee hfee
    by_cases hself : input.fromUserId = input.recipientId
    · rw [if_pos hself] at h
      cases h
    rw [if_neg hself] at h
    split at h
    · rename_i sender recipient hsender hrecipient
      simp only [roundMoney_add_ofCents, roundMoney_sub_ofCents, roundMoney_ofCents,
        ← sub_sub] at h
      by_cases hbanned : recipient.status = .banned
      · rw [if_pos hbanned] at h
        cases h
      rw [if_neg hbanned] at h
      by_cases hover : maxUserBalance < roundMoney (ofUnits recipient.balance) + amount
      · rw [if_pos hover] at h
        cases h
      rw [if_neg hover] at h
      by_cases hshort : roundMoney (ofUnits sender.balance) - amount - fee < 0
      · rw [if_pos hshort] at h
        cases h
      rw [if_neg hshort] at h
      exact ⟨sender, recipient, amount, fee, ⟨hamount, hfee, hself, hsender, hrecipient, hbanned,
        not_lt.mp hover, not_lt.mp hshort⟩, (Except.ok.inj h).symm⟩
    · cases h
  · rintro ⟨sender, recipient, amount, fee, hagreed, rfl⟩
    simp only [buildBalanceTransferPreview, hagreed.amountOk, hagreed.feeOk, hagreed.senderRow,
      hagreed.recipientRow, if_neg hagreed.notSelf, if_neg hagreed.notBanned, roundMoney_add_ofCents,
      roundMoney_sub_ofCents, roundMoney_ofCents, ← sub_sub, if_neg (not_lt.mpr hagreed.within),
      if_neg (not_lt.mpr hagreed.enough)]
    rfl

/-- The rows after a transfer: the rounded balances and what is taken from them or added. -/
def agreedWrites (db : Db) (input : Input) (transferNo : String) (sender recipient : User)
    (amount fee : Cents) : Db :=
  writeTransfer db input transferNo sender recipient amount fee
    (roundMoney (ofUnits sender.balance) - amount)
    (roundMoney (ofUnits sender.balance) - amount - fee)
    (roundMoney (ofUnits recipient.balance) + amount)

theorem transferTransaction_ok (hself : input.fromUserId ≠ input.recipientId)
    (hamount : normalizeBalanceTransferAmount input.amount = .ok amount)
    (hfee : normalizeBalanceTransferFee input.fee = .ok fee)
    (h : transferTransaction input transferNo amount fee db = .ok (db', preview)) :
    ∃ sender recipient, Agreed db input sender recipient amount fee ∧
      preview = agreedPreview input sender recipient amount fee ∧
      db' = agreedWrites db input transferNo sender recipient amount fee := by
  unfold transferTransaction at h
  split at h
  · rename_i sender recipient hsender hrecipient
    simp only [roundMoney_add_ofCents, roundMoney_sub_ofCents, roundMoney_ofCents] at h
    by_cases hbanned : recipient.status = .banned
    · rw [if_pos hbanned] at h
      cases h
    rw [if_neg hbanned] at h
    by_cases hshort : roundMoney (ofUnits sender.balance) - amount - fee < 0
    · rw [if_pos hshort] at h
      cases h
    rw [if_neg hshort] at h
    by_cases hover : maxUserBalance < roundMoney (ofUnits recipient.balance) + amount
    · rw [if_pos hover] at h
      cases h
    rw [if_neg hover] at h
    obtain ⟨hdb, hpreview⟩ := Prod.mk.inj (Except.ok.inj h)
    exact ⟨sender, recipient, ⟨hamount, hfee, hself, hsender, hrecipient, hbanned,
      not_lt.mp hover, not_lt.mp hshort⟩, hpreview.symm, hdb.symm⟩
  · cases h

theorem transferTransaction_of_agreed (h : Agreed db input sender recipient amount fee) :
    transferTransaction input transferNo amount fee db =
      .ok (agreedWrites db input transferNo sender recipient amount fee,
        agreedPreview input sender recipient amount fee) := by
  simp only [transferTransaction, h.senderRow, h.recipientRow, if_neg h.notBanned,
    roundMoney_add_ofCents, roundMoney_sub_ofCents, roundMoney_ofCents,
    if_neg (not_lt.mpr h.enough), if_neg (not_lt.mpr h.within)]
  rfl

theorem transfer_of_agreed (haborted : aborted < 3)
    (h : Agreed db input sender recipient amount fee) :
    transferBalanceBetweenUsers aborted db input transferNo =
      (agreedWrites db input transferNo sender recipient amount fee,
        .ok (agreedPreview input sender recipient amount fee)) := by
  simp only [transferBalanceBetweenUsers, h.amountOk, h.feeOk, if_neg h.notSelf,
    runBalanceTransaction, if_neg (not_le.mpr haborted), transferTransaction_of_agreed h]

/-- A transfer is refused and changes nothing, or all checks hold and it writes. -/
theorem transfer_cases (aborted : ℕ) (db : Db) (input : Input) (transferNo : String) :
    (∃ message, transferBalanceBetweenUsers aborted db input transferNo = (db, .error message)) ∧
        (3 ≤ aborted ∨ ∀ preview, buildBalanceTransferPreview db input ≠ .ok preview) ∨
      ∃ sender recipient amount fee, aborted < 3 ∧ Agreed db input sender recipient amount fee ∧
        transferBalanceBetweenUsers aborted db input transferNo =
          (agreedWrites db input transferNo sender recipient amount fee,
            .ok (agreedPreview input sender recipient amount fee)) := by
  by_cases hagreed : ∃ sender recipient amount fee, Agreed db input sender recipient amount fee
  · obtain ⟨sender, recipient, amount, fee, hagreed⟩ := hagreed
    by_cases haborted : 3 ≤ aborted
    · refine .inl ⟨⟨"could not serialize", ?_⟩, .inl haborted⟩
      simp only [transferBalanceBetweenUsers, hagreed.amountOk, hagreed.feeOk,
        if_neg hagreed.notSelf, runBalanceTransaction, if_pos haborted]
    · exact .inr ⟨sender, recipient, amount, fee, not_le.mp haborted, hagreed,
        transfer_of_agreed (not_le.mp haborted) hagreed⟩
  · have hrefused : ∀ preview, buildBalanceTransferPreview db input ≠ .ok preview := by
      intro preview hpreview
      obtain ⟨sender, recipient, amount, fee, hchecked, -⟩ := preview_ok_iff.mp hpreview
      exact hagreed ⟨sender, recipient, amount, fee, hchecked⟩
    refine .inl ⟨?_, .inr hrefused⟩
    unfold transferBalanceBetweenUsers
    split
    · exact ⟨_, rfl⟩
    rename_i amount hamount
    split
    · exact ⟨_, rfl⟩
    rename_i fee hfee
    by_cases hself : input.fromUserId = input.recipientId
    · rw [if_pos hself]
      exact ⟨_, rfl⟩
    rw [if_neg hself, runBalanceTransaction]
    by_cases haborted : 3 ≤ aborted
    · rw [if_pos haborted]
      exact ⟨_, rfl⟩
    rw [if_neg haborted]
    cases hrun : transferTransaction input transferNo amount fee db with
    | error message => exact ⟨message, rfl⟩
    | ok written =>
      obtain ⟨sender, recipient, hchecked, -⟩ := transferTransaction_ok hself hamount hfee hrun
      exact absurd ⟨sender, recipient, amount, fee, hchecked⟩ hagreed

/-! ## What it moves -/

/-- The logs of a transfer. -/
def agreedLogs (input : Input) (transferNo : String) (sender recipient : User)
    (amount fee : Cents) : List Log :=
  { userId := input.fromUserId, type := .balanceTransferOut, amount := -toUnits amount
    balanceBefore := sender.balance
    balanceAfter := toUnits (roundMoney (ofUnits sender.balance) - amount)
    orderId := transferNo, remark := s!"转账给 {recipient.username}" } ::
    ((if 0 < fee then
        [{ userId := input.fromUserId, type := .balanceTransferFee, amount := -toUnits fee
           balanceBefore := toUnits (roundMoney (ofUnits sender.balance) - amount)
           balanceAfter := toUnits (roundMoney (ofUnits sender.balance) - amount - fee)
           orderId := transferNo, remark := "余额转账手续费" }]
      else []) ++
    [{ userId := input.recipientId, type := .balanceTransferIn, amount := toUnits amount
       balanceBefore := recipient.balance
       balanceAfter := toUnits (roundMoney (ofUnits recipient.balance) + amount)
       orderId := transferNo, remark := s!"收到 {sender.username} 转账" }])

theorem agreedWrites_balanceLogs :
    (agreedWrites db input transferNo sender recipient amount fee).balanceLogs =
      db.balanceLogs ++ agreedLogs input transferNo sender recipient amount fee := by
  by_cases hfee : 0 < fee
  · simp [agreedWrites, writeTransfer, agreedLogs, Db.createLog, Db.setBalance, hfee]
  · simp [agreedWrites, writeTransfer, agreedLogs, Db.createLog, Db.setBalance, hfee]

theorem agreedWrites_users :
    (agreedWrites db input transferNo sender recipient amount fee).users =
      ((db.setBalance input.fromUserId (roundMoney (ofUnits sender.balance) - amount - fee)).setBalance
        input.recipientId (roundMoney (ofUnits recipient.balance) + amount)).users := by
  by_cases hfee : 0 < fee
  · simp [agreedWrites, writeTransfer, Db.createLog, hfee]
  · simp [agreedWrites, writeTransfer, Db.createLog, hfee]

/-- The user `id` has `amount` more than before, within the bounds, and his new logs lead from
the one balance to the other. -/
structure Moved (db' : Db) (logs : List Log) (id : ℕ) (user : User) (amount : Units) : Prop where
  row : db'.users id = some { user with balance := user.balance + amount }
  nonneg : 0 ≤ user.balance + amount
  within : user.balance + amount ≤ toUnits maxUserBalance
  chain : Chained.Linked Log.balanceBefore Log.balanceAfter user.balance
    (logs.filter (·.userId = id)) (user.balance + amount)

/-- The sender has paid the amount and the fee, the recipient has the amount, the logs say so, and
it is what the preview shows. -/
structure Booked (db db' : Db) (input : Input) (result : Preview) : Prop where
  moved : ∃ sender recipient logs, db.users input.fromUserId = some sender ∧
    db.users input.recipientId = some recipient ∧ db'.balanceLogs = db.balanceLogs ++ logs ∧
    Moved db' logs input.fromUserId sender (-toUnits (result.amount + result.fee)) ∧
    Moved db' logs input.recipientId recipient (toUnits result.amount) ∧
    ∀ log ∈ logs, (log.userId = input.fromUserId ∨ log.userId = input.recipientId) ∧
      log.balanceAfter - log.balanceBefore = log.amount
  others : ∀ id, id ≠ input.fromUserId → id ≠ input.recipientId → db'.users id = db.users id
  preview : buildBalanceTransferPreview db input = .ok result

/-- Both balances are whole cents, and the transfer brings them within the bounds. -/
structure WholeCents (sender recipient : User) (amount fee : Cents) : Prop where
  senderWhole : 1000000 ∣ sender.balance
  recipientWhole : 1000000 ∣ recipient.balance
  senderWithin : sender.balance - toUnits (amount + fee) ≤ toUnits maxUserBalance
  recipientNonneg : 0 ≤ recipient.balance + toUnits amount

theorem toUnits_add (a b : Cents) : toUnits (a + b) = toUnits a + toUnits b := add_mul _ _ _

theorem toUnits_sub (a b : Cents) : toUnits (a - b) = toUnits a - toUnits b := sub_mul _ _ _

theorem toUnits_mono {a b : Cents} (h : a ≤ b) : toUnits a ≤ toUnits b :=
  mul_le_mul_of_nonneg_right h (by decide)

theorem sender_row (h : Agreed db input sender recipient amount fee) :
    (agreedWrites db input transferNo sender recipient amount fee).users input.fromUserId =
      some { sender with
        balance := toUnits (roundMoney (ofUnits sender.balance) - amount - fee) } := by
  rw [agreedWrites_users, Db.setBalance_of_ne _ _ h.notSelf, Db.setBalance_self, h.senderRow]
  rfl

theorem recipient_row (h : Agreed db input sender recipient amount fee) :
    (agreedWrites db input transferNo sender recipient amount fee).users input.recipientId =
      some { recipient with
        balance := toUnits (roundMoney (ofUnits recipient.balance) + amount) } := by
  rw [agreedWrites_users, Db.setBalance_self, Db.setBalance_of_ne _ _ h.notSelf.symm,
    h.recipientRow]
  rfl

theorem other_row {id : ℕ} (hfrom : id ≠ input.fromUserId) (hto : id ≠ input.recipientId) :
    (agreedWrites db input transferNo sender recipient amount fee).users id = db.users id := by
  rw [agreedWrites_users, Db.setBalance_of_ne _ _ hto, Db.setBalance_of_ne _ _ hfrom]

/-- With whole cents nothing is rounded. -/
theorem booked_of_wholeCents (h : Agreed db input sender recipient amount fee)
    (hwhole : WholeCents sender recipient amount fee) :
    Booked db (agreedWrites db input transferNo sender recipient amount fee) input
      (agreedPreview input sender recipient amount fee) := by
  have hsender := (toUnits_roundMoney_iff sender.balance).mpr hwhole.senderWhole
  have hrecipient := (toUnits_roundMoney_iff recipient.balance).mpr hwhole.recipientWhole
  have hpaid : toUnits (roundMoney (ofUnits sender.balance) - amount - fee) =
      sender.balance + -toUnits (amount + fee) := by
    rw [toUnits_sub, toUnits_sub, hsender, toUnits_add]
    ring
  have hgot : toUnits (roundMoney (ofUnits recipient.balance) + amount) =
      recipient.balance + toUnits amount := by
    rw [toUnits_add, hrecipient]
  have hne := h.notSelf
  refine
    { moved := ⟨sender, recipient, _, h.senderRow, h.recipientRow, agreedWrites_balanceLogs,
        ⟨?_, ?_, ?_, ?_⟩, ⟨?_, hwhole.recipientNonneg, ?_, ?_⟩, ?_⟩
      others := fun id hfrom hto => other_row hfrom hto
      preview := preview_ok_iff.mpr ⟨sender, recipient, amount, fee, h, rfl⟩ }
  · rw [sender_row h, hpaid]
    rfl
  · have hpos := toUnits_mono h.enough
    rw [hpaid] at hpos
    exact hpos
  · exact hwhole.senderWithin
  · show Chained.Linked Log.balanceBefore Log.balanceAfter sender.balance _
      (sender.balance + -toUnits (amount + fee))
    rw [← hpaid]
    by_cases hfee : 0 < fee
    · simp [agreedLogs, hfee, hne.symm]
    · have hzero : fee = 0 := le_antisymm (not_lt.mp hfee) (fee_nonneg h.feeOk)
      simp [agreedLogs, hne.symm, hzero]
  · rw [recipient_row h, hgot]
    rfl
  · have hle := toUnits_mono h.within
    rw [hgot] at hle
    exact hle
  · show Chained.Linked Log.balanceBefore Log.balanceAfter recipient.balance _
      (recipient.balance + toUnits amount)
    rw [← hgot]
    by_cases hfee : 0 < fee
    · simp [agreedLogs, hfee, hne]
    · simp [agreedLogs, hfee, hne]
  · intro log hlog
    rcases List.mem_cons.mp hlog with rfl | hlog
    · refine ⟨.inl rfl, ?_⟩
      dsimp only
      rw [toUnits_sub, hsender]
      ring
    · rcases List.mem_append.mp hlog with hlog | hlog
      · by_cases hfee : 0 < fee
        · rw [if_pos hfee] at hlog
          obtain rfl := List.mem_singleton.mp hlog
          refine ⟨.inl rfl, ?_⟩
          dsimp only
          rw [toUnits_sub _ fee]
          ring
        · rw [if_neg hfee] at hlog
          cases hlog
      · obtain rfl := List.mem_singleton.mp hlog
        refine ⟨.inr rfl, ?_⟩
        dsimp only
        rw [hgot]
        ring

/-- If the rows have moved by what was asked, nothing was rounded. -/
theorem wholeCents_of_booked (h : Agreed db input sender recipient amount fee)
    (hbooked : Booked db (agreedWrites db input transferNo sender recipient amount fee) input
      (agreedPreview input sender recipient amount fee)) :
    WholeCents sender recipient amount fee := by
  obtain ⟨payer, payee, logs, hpayer, hpayee, -, hpaid, hgot, -⟩ := hbooked.moved
  obtain rfl := Option.some.inj (h.senderRow.symm.trans hpayer)
  obtain rfl := Option.some.inj (h.recipientRow.symm.trans hpayee)
  have hsender : toUnits (roundMoney (ofUnits sender.balance) - amount - fee) =
      sender.balance + -toUnits (amount + fee) :=
    congrArg User.balance (Option.some.inj ((sender_row h).symm.trans hpaid.row))
  have hrecipient : toUnits (roundMoney (ofUnits recipient.balance) + amount) =
      recipient.balance + toUnits amount :=
    congrArg User.balance (Option.some.inj ((recipient_row h).symm.trans hgot.row))
  refine ⟨(toUnits_roundMoney_iff _).mp ?_, (toUnits_roundMoney_iff _).mp ?_, hpaid.within,
    hgot.nonneg⟩
  · rw [toUnits_sub, toUnits_sub, toUnits_add] at hsender
    linarith
  · rw [toUnits_add] at hrecipient
    linarith

/-- Nothing has changed, or the transfer is booked as it should be. -/
def TransferKept (db : Db) (input : Input) (outcome : Db × Except String Preview) : Prop :=
  match outcome.2 with
  | .error _ => outcome.1 = db
  | .ok result => Booked db outcome.1 input result

end Transfer

/-- User 1 has 10.005 yuan, of which hourly bills have left half a cent. -/
def halfCentDb : Db where
  users := fun id => if id = 1 then some { balance := 1000500000 } else if id = 2 then
    some { balance := 0 } else none

end Incudal.BalanceTransfer
