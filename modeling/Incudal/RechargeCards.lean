/-
# `RechargeCards` — cards that are redeemed, and cards that are deleted

A redemption locks the row of its card, reads it again under the lock, and
writes order, balance, log and card in one transaction.  A deletion reads first
and deletes on the condition that the card is still unused, which waits for a
redemption that has the lock.  The deletion of many cards reports what it has
done from a read before and a read after.

So a card is credited once, while it is there and unused; what the balances have
gained is the value of the used cards, and of their orders; and a report splits
the ids it was given into deleted, used and unknown ones, whatever has come
between its reads (`recharge_cards_conserved`).
-/
import Incudal.Lib.Exclusive
import Incudal.Lib.Machine
import Incudal.Lib.Trim
import Incudal.PaymentCallbacks
import Incudal.Recharge

namespace Incudal

/-! ## Tables -/

structure RechargeCard where
  id : ℕ
  cardNo : String
  passwordHash : String
  amount : Cents
  usedById : Option ℕ := none
  usedAt : Option Time := none
  rechargeRecordId : Option ℕ := none
deriving DecidableEq, Repr

/-- A row of `recharge_records`, with the card of `callback_data`. -/
structure CardOrder where
  id : ℕ
  userId : ℕ
  providerId : ℕ
  orderNo : String
  amount : Cents
  actualAmount : Cents
  fee : Cents
  paymentMethod : String
  status : RechargeStatus
  cardId : Option ℕ
deriving DecidableEq, Repr

structure CardUser where
  id : ℕ
  balance : Units
deriving DecidableEq, Repr

inductive RechargeCardError
  | invalidCardCredential | rechargeCardProviderDisabled | rechargeCardNotFound
  | rechargeCardAlreadyUsed | rechargeCardPasswordInvalid | userNotFound | duplicateOrder
  | cardAlreadyUsed
  /-- the connection is lost, or the transaction times out -/
  | aborted
deriving DecidableEq, Repr

/-! ## Calls -/

/-- What the code uses of `bcrypt` and of the runtime. -/
structure CardTools where
  compare : String → String → Bool
  toUpperCase : List Char → List Char

structure RedeemInput where
  userId : ℕ
  cardNo : String
  password : String
deriving DecidableEq, Repr

structure RedeemRechargeCardResult where
  card : RechargeCard
  orderNo : String
  amount : Cents
  balance : Units
deriving DecidableEq, Repr

/-- What `deleteRechargeCards` returns. -/
structure DeletionReport where
  deleted : ℕ
  skippedUsed : ℕ
  notFound : ℕ
  deletedIds : List ℕ
deriving DecidableEq, Repr

/-- A call, by the statement that comes next. -/
inductive CardCall
  | redeeming (input : RedeemInput)
  | selecting (input : RedeemInput) (providerId : ℕ)
  | locked (input : RedeemInput) (providerId cardId : ℕ)
  | verified (input : RedeemInput) (providerId : ℕ) (card : RechargeCard)
  | redeemed (result : Except RechargeCardError RedeemRechargeCardResult)
  | finding (id : ℕ)
  | deleting (id : ℕ)
  | deleted (result : Except RechargeCardError Bool)
  | reading (ids : List (Option ℚ))
  | clearing (ids : List (Option ℚ)) (unusedIds : List ℕ) (skippedUsed notFound : ℕ)
  | counting (ids : List (Option ℚ)) (unusedIds : List ℕ) (skippedUsed notFound : ℕ)
  | reported (ids : List (Option ℚ)) (report : DeletionReport)
deriving DecidableEq

/-- The row that is locked. -/
def CardCall.locks : CardCall → Option ℕ
  | .locked _ _ cardId => some cardId
  | .verified _ _ card => some card.id
  | _ => none

structure CardWorld where
  /-- the active provider of type `recharge_card` -/
  providerId : Option ℕ
  cards : List RechargeCard
  orders : List CardOrder
  nextOrder : ℕ
  users : List CardUser
  logs : List RechargeLog := []
  calls : List CardCall := []

inductive CardStep
  | redeem (userId : ℕ) (cardNo password : String)
  | delete (id : ℕ)
  /-- a number that is not finite is none -/
  | deleteMany (ids : List (Option ℚ))
  | setProvider (providerId : Option ℕ)
  /-- the next statement of a call -/
  | next (k : ℕ)
  /-- the last statements of a redemption, and the commit -/
  | commit (k : ℕ) (orderNo : String) (now : Time)
  | rollback (k : ℕ)

variable (tools : CardTools)

/-! ## The code -/

def normalizeRechargeCardCredential (value : String) : String :=
  let kept := (Trim.trimBy jsSpace value.toList).filter fun c => !(jsSpace c || c == '-')
  String.ofList (tools.toUpperCase kept)

/-- `redeemRechargeCard`, before its transaction. -/
def redeemRechargeCard (userId : ℕ) (cardNo password : String) : CardCall :=
  let cardNo := normalizeRechargeCardCredential tools cardNo
  let password := normalizeRechargeCardCredential tools password
  if cardNo.isEmpty || password.isEmpty then .redeemed (.error .invalidCardCredential)
  else .redeeming { userId, cardNo, password }

/-- `Number.isInteger(id) && id > 0` -/
def positiveInteger : Option ℚ → Option ℕ
  | none => none
  | some id => if id.den = 1 ∧ 0 < id.num then some id.num.toNat else none

/-- `uniqueIds` -/
def acceptedIds (ids : List (Option ℚ)) : List ℕ :=
  ((ids.filterMap positiveInteger).eraseDups).take 1000

/-- `deleteRechargeCards`, before its statements. -/
def deleteRechargeCards (ids : List (Option ℚ)) : CardCall :=
  if acceptedIds ids = [] then .reported ids ⟨0, 0, 0, []⟩ else .reading ids

namespace CardWorld

variable (w : CardWorld)

def put (k : ℕ) (call : CardCall) : CardWorld := { w with calls := w.calls.set k call }

def findCard (id : ℕ) : Option RechargeCard := Keyed.lookup RechargeCard.id id w.cards

def isLocked (id : ℕ) : Bool := w.calls.any fun call => call.locks == some id

/-- What `deleteMany({ where: { id: { in: ids }, usedAt: null } })` leaves. -/
def without (ids : List ℕ) : CardWorld :=
  { w with cards := w.cards.filter fun card => !(decide (card.id ∈ ids) && card.usedAt.isNone) }

/-- Whether that statement has to wait for a row. -/
def mustWait (ids : List ℕ) : Bool :=
  w.cards.any fun card => decide (card.id ∈ ids) && card.usedAt.isNone && w.isLocked card.id

/-- A transaction that ends with an error. -/
def fail (k : ℕ) (e : RechargeCardError) : CardWorld := w.put k (.redeemed (.error e))

/-- The first read of `deleteRechargeCards`. -/
def readCards (ids : List (Option ℚ)) : CardCall :=
  let uniqueIds := acceptedIds ids
  let cards := w.cards.filter fun card => decide (card.id ∈ uniqueIds)
  let foundIds := cards.map (·.id)
  let unusedIds := (cards.filter fun card => card.usedAt.isNone).map (·.id)
  let skippedUsed := cards.length - unusedIds.length
  let notFound := (uniqueIds.filter fun id => decide (id ∉ foundIds)).length
  if unusedIds = [] then .reported ids ⟨0, skippedUsed, notFound, []⟩
  else .clearing ids unusedIds skippedUsed notFound

/-- Its second read, and the report. -/
def report (unusedIds : List ℕ) (skippedUsed notFound : ℕ) : DeletionReport :=
  let remainingIds := (w.cards.filter fun card => decide (card.id ∈ unusedIds)).map (·.id)
  let deletedIds := unusedIds.filter fun id => decide (id ∉ remainingIds)
  let skippedAfterDelete := unusedIds.length - deletedIds.length
  { deleted := deletedIds.length
    skippedUsed := skippedUsed + skippedAfterDelete
    notFound
    deletedIds }

/-- The next statement of a call; none while it waits for a lock. -/
def next (k : ℕ) : Option CardWorld :=
  match w.calls[k]? with
  | some (.redeeming input) =>
      match w.providerId with
      | none => some (w.fail k .rechargeCardProviderDisabled)
      | some providerId => some (w.put k (.selecting input providerId))
  | some (.selecting input providerId) =>
      match w.cards.find? fun card => card.cardNo == input.cardNo with
      | none => some (w.fail k .rechargeCardNotFound)
      | some card =>
          if w.isLocked card.id then none
          else some (w.put k (.locked input providerId card.id))
  | some (.locked input providerId cardId) =>
      match w.findCard cardId with
      | none => some (w.fail k .rechargeCardNotFound)
      | some card =>
          if card.usedAt.isSome then some (w.fail k .rechargeCardAlreadyUsed)
          else if !tools.compare input.password card.passwordHash then
            some (w.fail k .rechargeCardPasswordInvalid)
          else some (w.put k (.verified input providerId card))
  | some (.finding id) =>
      match w.findCard id with
      | none => some (w.put k (.deleted (.ok false)))
      | some card =>
          if card.usedAt.isSome then some (w.put k (.deleted (.error .cardAlreadyUsed)))
          else some (w.put k (.deleting id))
  | some (.deleting id) =>
      if w.mustWait [id] then none
      else
        let count := w.cards.length - (w.without [id]).cards.length
        some ((w.without [id]).put k (.deleted (.ok (decide (0 < count)))))
  | some (.reading ids) => some (w.put k (w.readCards ids))
  | some (.clearing ids unusedIds skippedUsed notFound) =>
      if w.mustWait unusedIds then none
      else some ((w.without unusedIds).put k (.counting ids unusedIds skippedUsed notFound))
  | some (.counting ids unusedIds skippedUsed notFound) =>
      some (w.put k (.reported ids (w.report unusedIds skippedUsed notFound)))
  | _ => none

/-- The order of a redemption. -/
def order (input : RedeemInput) (providerId : ℕ) (card : RechargeCard) (orderNo : String) :
    CardOrder where
  id := w.nextOrder
  userId := input.userId
  providerId
  orderNo
  amount := card.amount
  actualAmount := card.amount
  fee := 0
  paymentMethod := "recharge_card"
  status := .completed
  cardId := some card.id

/-- The cards after `rechargeCard.update`. -/
def useCard (input : RedeemInput) (card : RechargeCard) (now : Time) : List RechargeCard :=
  Keyed.modify RechargeCard.id card.id
    (fun row => { row with
      usedById := some input.userId
      usedAt := some now
      rechargeRecordId := some w.nextOrder }) w.cards

/-- What a redemption has written once it is committed. -/
def redeemedBy (input : RedeemInput) (providerId : ℕ) (card : RechargeCard) (orderNo : String)
    (now : Time) (balance : Units) : CardWorld :=
  { w with
    orders := w.orders ++ [w.order input providerId card orderNo]
    nextOrder := w.nextOrder + 1
    users := Keyed.modify CardUser.id input.userId
      (fun user => { user with balance := user.balance + toUnits card.amount }) w.users
    logs := w.logs ++ [{
      userId := input.userId
      amount := card.amount
      balanceBefore := balance - toUnits card.amount
      balanceAfter := balance
      orderId := orderNo }]
    cards := w.useCard input card now }

/-- The writes of a redemption, with the order number that was drawn. -/
def commit (k : ℕ) (orderNo : String) (now : Time) : Option CardWorld :=
  match w.calls[k]? with
  | some (.verified input providerId card) =>
      if w.orders.any fun order => order.orderNo == orderNo then some (w.fail k .duplicateOrder)
      else
        match Keyed.lookup CardUser.id input.userId w.users with
        | none => some (w.fail k .userNotFound)
        | some user =>
            let balance := user.balance + toUnits card.amount
            let usedCard := { card with
              usedById := some input.userId
              usedAt := some now
              rechargeRecordId := some w.nextOrder }
            some ((w.redeemedBy input providerId card orderNo now balance).put k
              (.redeemed (.ok { card := usedCard, orderNo, amount := card.amount, balance })))
  | _ => none

end CardWorld

def cardStep (w : CardWorld) : CardStep → Option CardWorld
  | .redeem userId cardNo password =>
      some { w with calls := w.calls ++ [redeemRechargeCard tools userId cardNo password] }
  | .delete id => some { w with calls := w.calls ++ [.finding id] }
  | .deleteMany ids => some { w with calls := w.calls ++ [deleteRechargeCards ids] }
  | .setProvider providerId => some { w with providerId }
  | .next k => w.next tools k
  | .commit k orderNo now => w.commit k orderNo now
  | .rollback k =>
      match w.calls[k]? with
      | some (.redeeming ..) | some (.selecting ..) | some (.locked ..) | some (.verified ..) =>
          some (w.fail k .aborted)
      | _ => none

/-! ## What is promised -/

def RechargeCard.isUsed (card : RechargeCard) : Bool := card.usedAt.isSome

/-- The value of the used cards. -/
def usedTotal (cards : List RechargeCard) : Cents :=
  Keyed.total RechargeCard.amount (cards.filter (·.isUsed))

namespace CardWorld

/-- A completed order of a card, to which a used card is linked. -/
def linked (w : CardWorld) (order : CardOrder) : Bool :=
  order.paymentMethod == "recharge_card" && order.status == .completed &&
    w.cards.any fun card => card.isUsed && card.rechargeRecordId == some order.id

def linkedTotal (w : CardWorld) : Cents :=
  Keyed.total CardOrder.amount (w.orders.filter w.linked)

end CardWorld

/-- A step that credits a card, to one user. -/
structure Credit (w w' : CardWorld) (card : RechargeCard) (order : CardOrder) : Prop where
  mem : card ∈ w.cards
  unused : card.usedAt = none
  orders : w'.orders = w.orders ++ [order]
  ofCard : order.cardId = some card.id
  amount : order.amount = card.amount
  user : ∃ user ∈ w.users, user.id = order.userId
  users : w'.users = Keyed.modify CardUser.id order.userId
    (fun user => { user with balance := user.balance + toUnits card.amount }) w.users
  used : ∃ row ∈ w'.cards, row.id = card.id ∧ row.isUsed = true

/-- The report splits the ids that were accepted. -/
structure DeletionReport.Splits (report : DeletionReport) (start : List RechargeCard)
    (w : CardWorld) (accepted skipped missing : List ℕ) : Prop where
  nodup : accepted.Nodup
  perm : accepted.Perm (report.deletedIds ++ (skipped ++ missing))
  deleted : report.deleted = report.deletedIds.length
  skippedUsed : report.skippedUsed = skipped.length
  notFound : report.notFound = missing.length
  ofDeleted : ∀ id ∈ report.deletedIds,
    (∃ card ∈ start, card.id = id ∧ card.usedAt = none) ∧ ∀ card ∈ w.cards, card.id ≠ id
  ofSkipped : ∀ id ∈ skipped, ∃ card ∈ w.cards, card.id = id ∧ card.isUsed = true
  ofMissing : ∀ id ∈ missing, ∀ card ∈ w.cards, card.id ≠ id
  uncredited : ∀ order ∈ w.orders, ∀ id ∈ report.deletedIds, order.cardId ≠ some id

structure CardsConserved (start w : CardWorld) : Prop where
  once : (w.orders.filterMap CardOrder.cardId).Nodup
  credits : ∀ i w', cardStep tools w i = some w' →
    w'.users = w.users ∧ w'.orders = w.orders ∨ ∃ card order, Credit w w' card order
  balances : Keyed.total CardUser.balance w.users - Keyed.total CardUser.balance start.users =
    toUnits (usedTotal w.cards) - toUnits (usedTotal start.cards)
  orders : usedTotal w.cards = w.linkedTotal
  kept : ∀ i w', cardStep tools w i = some w' →
    ∀ card ∈ w.cards, card.isUsed = true → card ∈ w'.cards
  reports : ∀ ids report, CardCall.reported ids report ∈ w.calls →
    ∃ skipped missing, report.Splits start.cards w (acceptedIds ids) skipped missing

/-! ## The books -/

/-- Used cards and the orders of cards belong to each other. -/
structure CardBooks (w : CardWorld) : Prop where
  cardIds : (w.cards.map RechargeCard.id).Nodup
  orderIds : (w.orders.map CardOrder.id).Nodup
  below : ∀ order ∈ w.orders, order.id < w.nextOrder
  userIds : (w.users.map CardUser.id).Nodup
  used : ∀ card ∈ w.cards, card.isUsed = true → ∃ order ∈ w.orders,
    card.rechargeRecordId = some order.id ∧ order.cardId = some card.id ∧
      order.amount = card.amount ∧ order.paymentMethod = "recharge_card" ∧
        order.status = .completed
  credited : ∀ order ∈ w.orders, ∀ id, order.cardId = some id → ∃ card ∈ w.cards,
    card.id = id ∧ card.isUsed = true ∧ card.rechargeRecordId = some order.id

section Books

variable {w : CardWorld} {order order' : CardOrder} {card card' : RechargeCard} {id : ℕ}

/-- The books are kept in these columns. -/
theorem CardBooks.of_tables {w' : CardWorld} (h : CardBooks w) (hcards : w'.cards = w.cards)
    (horders : w'.orders = w.orders) (hnext : w'.nextOrder = w.nextOrder)
    (husers : w'.users = w.users) : CardBooks w' := by
  obtain ⟨hcardIds, horderIds, hbelow, huserIds, hused, hcredited⟩ := h
  refine ⟨?_, ?_, ?_, ?_, ?_, ?_⟩ <;> simp only [hcards, horders, hnext, husers] <;> assumption

theorem CardBooks.card_ext (h : CardBooks w) (hcard : card ∈ w.cards) (hcard' : card' ∈ w.cards)
    (hid : card.id = card'.id) : card = card' :=
  List.inj_on_of_nodup_map h.cardIds hcard hcard' hid

theorem CardBooks.order_ext (h : CardBooks w) (horder : order ∈ w.orders)
    (horder' : order' ∈ w.orders) (hid : order.id = order'.id) : order = order' :=
  List.inj_on_of_nodup_map h.orderIds horder horder' hid

/-- Two orders of one card are one order. -/
theorem CardBooks.order_ext_of_cardId (h : CardBooks w) (horder : order ∈ w.orders)
    (horder' : order' ∈ w.orders) (hid : order.cardId = some id)
    (hid' : order'.cardId = some id) : order = order' := by
  obtain ⟨card, hcard, rfl, -, hlink⟩ := h.credited order horder id hid
  obtain ⟨card', hcard', hsame, -, hlink'⟩ := h.credited order' horder' card.id hid'
  obtain rfl := h.card_ext hcard' hcard hsame
  exact h.order_ext horder horder' (Option.some.inj (hlink.symm.trans hlink'))

theorem CardBooks.once (h : CardBooks w) : (w.orders.filterMap CardOrder.cardId).Nodup := by
  have hids : w.orders.Pairwise fun a b => a.id ≠ b.id := List.pairwise_map.mp h.orderIds
  refine List.pairwise_filterMap.mpr (hids.imp_of_mem fun ha hb hne id hid id' hid' heq => ?_)
  subst heq
  exact hne (congrArg _ (h.order_ext_of_cardId ha hb hid hid'))

theorem CardBooks.linked_iff (h : CardBooks w) (horder : order ∈ w.orders) :
    w.linked order = true ↔ ∃ card ∈ w.cards, card.isUsed = true ∧
      order.cardId = some card.id ∧ order.amount = card.amount := by
  constructor
  · intro hlinked
    simp only [CardWorld.linked, Bool.and_eq_true, List.any_eq_true, beq_iff_eq] at hlinked
    obtain ⟨-, card, hcard, hused, hlink⟩ := hlinked
    obtain ⟨order', horder', hlink', hof, hamount, -⟩ := h.used card hcard hused
    obtain rfl := h.order_ext horder horder' (Option.some.inj (hlink.symm.trans hlink'))
    exact ⟨card, hcard, hused, hof, hamount⟩
  · rintro ⟨card, hcard, hused, hof, -⟩
    obtain ⟨order', horder', hlink, hof', -, hmethod, hstatus⟩ := h.used card hcard hused
    obtain rfl := h.order_ext_of_cardId horder horder' hof hof'
    simp only [CardWorld.linked, hmethod, hstatus, beq_self_eq_true, Bool.and_self,
      Bool.true_and, List.any_eq_true, Bool.and_eq_true, beq_iff_eq]
    exact ⟨card, hcard, hused, hlink⟩

/-- Used cards and linked orders have the same ids and amounts. -/
theorem CardBooks.linked (h : CardBooks w) : usedTotal w.cards = w.linkedTotal := by
  have hcards : ((w.cards.filter (·.isUsed)).map fun card =>
      (some card.id, card.amount)).Nodup := by
    have hids : w.cards.Pairwise fun a b => a.id ≠ b.id := List.pairwise_map.mp h.cardIds
    refine List.pairwise_map.mpr ((hids.filter _).imp fun hne heq => hne ?_)
    exact Option.some.inj (congrArg Prod.fst heq)
  have horders : ((w.orders.filter w.linked).map fun order =>
      (order.cardId, order.amount)).Nodup := by
    have hids : w.orders.Pairwise fun a b => a.id ≠ b.id := List.pairwise_map.mp h.orderIds
    refine List.pairwise_map.mpr ((hids.filter _).imp_of_mem fun ha hb hne heq => hne ?_)
    obtain ⟨ha, hlinked⟩ := List.mem_filter.mp ha
    obtain ⟨hb, -⟩ := List.mem_filter.mp hb
    obtain ⟨card, -, -, hof, -⟩ := (h.linked_iff ha).mp hlinked
    exact congrArg _ (h.order_ext_of_cardId ha hb hof ((congrArg Prod.fst heq).symm.trans hof))
  have hperm : ((w.cards.filter (·.isUsed)).map fun card => (some card.id, card.amount)).Perm
      ((w.orders.filter w.linked).map fun order => (order.cardId, order.amount)) := by
    refine (List.perm_ext_iff_of_nodup hcards horders).mpr fun p => ?_
    simp only [List.mem_map, List.mem_filter]
    constructor
    · rintro ⟨card, ⟨hcard, hused⟩, rfl⟩
      obtain ⟨order, horder, -, hof, hamount, -⟩ := h.used card hcard hused
      exact ⟨order, ⟨horder, (h.linked_iff horder).mpr ⟨card, hcard, hused, hof, hamount⟩⟩,
        Prod.ext hof hamount⟩
    · rintro ⟨order, ⟨horder, hlinked⟩, rfl⟩
      obtain ⟨card, hcard, hused, hof, hamount⟩ := (h.linked_iff horder).mp hlinked
      exact ⟨card, ⟨hcard, hused⟩, Prod.ext hof.symm hamount.symm⟩
  have hsum := (hperm.map Prod.snd).sum_eq
  rw [List.map_map, List.map_map] at hsum
  exact hsum

end Books

/-! ## Statements on the cards -/

/-- What a statement may do to the cards: used ones stay, and none is new. -/
structure CardsEvolve (cards cards' : List RechargeCard) : Prop where
  used : ∀ card ∈ cards, card.isUsed = true → card ∈ cards'
  known : ∀ card' ∈ cards', ∃ card ∈ cards,
    card.id = card'.id ∧ (card.isUsed = true → card'.isUsed = true)

section Evolve

variable {w : CardWorld} {card : RechargeCard} {ids : List ℕ} {input : RedeemInput}
  {providerId : ℕ} {orderNo : String} {now : Time} {balance : Units}

theorem mem_without : card ∈ (w.without ids).cards ↔
    card ∈ w.cards ∧ (card.id ∈ ids → card.isUsed = true) := by
  simp only [CardWorld.without, RechargeCard.isUsed, List.mem_filter]
  cases card.usedAt <;> simp

theorem evolve_without (w : CardWorld) (ids : List ℕ) :
    CardsEvolve w.cards (w.without ids).cards where
  used _ hcard hused := mem_without.mpr ⟨hcard, fun _ => hused⟩
  known card hcard := ⟨card, (mem_without.mp hcard).1, rfl, id⟩

/-- A deletion that does not have to wait deletes no row that is locked. -/
theorem mem_without_of_locked (hwait : w.mustWait ids = false) (hcard : card ∈ w.cards)
    (hlocked : w.isLocked card.id = true) : card ∈ (w.without ids).cards := by
  refine mem_without.mpr ⟨hcard, fun hid => ?_⟩
  by_contra hunused
  have hnone : card.usedAt.isNone = true := by
    simpa [RechargeCard.isUsed] using hunused
  have hany : w.mustWait ids = true :=
    List.any_eq_true.mpr ⟨card, hcard, by simp [hid, hnone, hlocked]⟩
  rw [hwait] at hany
  cases hany

theorem usedTotal_without (w : CardWorld) (ids : List ℕ) :
    usedTotal (w.without ids).cards = usedTotal w.cards := by
  have hfilter : (w.without ids).cards.filter (·.isUsed) = w.cards.filter (·.isUsed) := by
    simp only [CardWorld.without, RechargeCard.isUsed, List.filter_filter]
    refine List.filter_congr fun card _ => ?_
    cases card.usedAt <;> simp
  rw [usedTotal, hfilter, usedTotal]

theorem CardBooks.without (h : CardBooks w) (ids : List ℕ) : CardBooks (w.without ids) where
  cardIds := h.cardIds.sublist (List.filter_sublist.map _)
  orderIds := h.orderIds
  below := h.below
  userIds := h.userIds
  used card hcard := h.used card (mem_without.mp hcard).1
  credited order horder id hid := by
    obtain ⟨card, hcard, heq, hused, hlink⟩ := h.credited order horder id hid
    exact ⟨card, (evolve_without w ids).used card hcard hused, heq, hused, hlink⟩

theorem mem_useCard (h : CardBooks w) (hcard : card ∈ w.cards) {row : RechargeCard} :
    row ∈ w.useCard input card now ↔
      row = { card with
        usedById := some input.userId
        usedAt := some now
        rechargeRecordId := some w.nextOrder } ∨ row ∈ w.cards ∧ row.id ≠ card.id := by
  refine Keyed.mem_modify.trans ⟨?_, ?_⟩
  · rintro ⟨row', hrow', rfl⟩
    split
    · rename_i hid
      obtain rfl := h.card_ext hrow' hcard hid
      exact .inl rfl
    · rename_i hne
      exact .inr ⟨hrow', hne⟩
  · rintro (rfl | ⟨hrow, hne⟩)
    · exact ⟨card, hcard, (if_pos rfl).symm⟩
    · exact ⟨row, hrow, (if_neg hne).symm⟩

theorem evolve_useCard (h : CardBooks w) (hcard : card ∈ w.cards)
    (hunused : card.usedAt = none) : CardsEvolve w.cards (w.useCard input card now) where
  used row hrow hused := by
    refine (mem_useCard h hcard).mpr (.inr ⟨hrow, fun hid => ?_⟩)
    rw [h.card_ext hrow hcard hid, RechargeCard.isUsed, hunused] at hused
    cases hused
  known row hrow := by
    rcases (mem_useCard h hcard).mp hrow with rfl | ⟨hrow, -⟩
    · exact ⟨card, hcard, rfl, fun _ => rfl⟩
    · exact ⟨row, hrow, rfl, id⟩

theorem CardBooks.redeemedBy (h : CardBooks w) (hcard : card ∈ w.cards)
    (hunused : card.usedAt = none) :
    CardBooks (w.redeemedBy input providerId card orderNo now balance) where
  cardIds := by
    refine Eq.mpr (congrArg List.Nodup (Keyed.map_key_modify_of ?_)) h.cardIds
    exact fun _ hid => hid
  orderIds := by
    refine Keyed.nodup_append_singleton h.orderIds fun order horder => ?_
    exact (h.below order horder).ne
  below := Keyed.below_concat h.below (Nat.le_succ _) (Nat.lt_succ_self _)
  userIds := by
    refine Eq.mpr (congrArg List.Nodup (Keyed.map_key_modify ?_)) h.userIds
    exact fun _ => rfl
  used row hrow hused := by
    rcases (mem_useCard h hcard).mp hrow with rfl | ⟨hrow, -⟩
    · exact ⟨_, List.mem_append_right _ (List.mem_singleton.mpr rfl), rfl, rfl, rfl, rfl, rfl⟩
    · obtain ⟨order, horder, hrest⟩ := h.used row hrow hused
      exact ⟨order, List.mem_append_left _ horder, hrest⟩
  credited order horder id hid := by
    rcases List.mem_append.mp horder with horder | horder
    · obtain ⟨row, hrow, heq, hused, hlink⟩ := h.credited order horder id hid
      exact ⟨row, (evolve_useCard h hcard hunused).used row hrow hused, heq, hused, hlink⟩
    · obtain rfl := List.mem_singleton.mp horder
      exact ⟨_, (mem_useCard h hcard).mpr (.inl rfl), Option.some.inj hid, rfl, rfl⟩

theorem usedTotal_useCard (h : CardBooks w) (hcard : card ∈ w.cards)
    (hunused : card.usedAt = none) :
    usedTotal (w.useCard input card now) = usedTotal w.cards + card.amount := by
  simp only [usedTotal, Keyed.total_filter, CardWorld.useCard]
  rw [Keyed.total_modify h.cardIds hcard]
  simp [RechargeCard.isUsed, hunused]

end Evolve

/-! ## Reports -/

/-- The ids that a deletion has found unused, used and not at all. -/
structure IdsFound (start cards : List RechargeCard) (accepted unusedIds used missing : List ℕ) :
    Prop where
  nodup : accepted.Nodup
  perm : accepted.Perm (unusedIds ++ (used ++ missing))
  ofUnused : ∀ id ∈ unusedIds, ∃ card ∈ start, card.id = id ∧ card.usedAt = none
  ofUsed : ∀ id ∈ used, ∃ card ∈ cards, card.id = id ∧ card.isUsed = true
  ofMissing : ∀ id ∈ missing, ∀ card ∈ cards, card.id ≠ id

/-- What a call knows of the cards. -/
def CardCallOk (start cards : List RechargeCard) : CardCall → Prop
  | .locked _ _ cardId => ∃ card ∈ cards, card.id = cardId
  | .verified _ _ card => card ∈ cards ∧ card.usedAt = none
  | .clearing ids unusedIds skippedUsed notFound =>
      ∃ used missing, IdsFound start cards (acceptedIds ids) unusedIds used missing ∧
        used.length = skippedUsed ∧ missing.length = notFound
  | .counting ids unusedIds skippedUsed notFound =>
      (∃ used missing, IdsFound start cards (acceptedIds ids) unusedIds used missing ∧
        used.length = skippedUsed ∧ missing.length = notFound) ∧
      ∀ card ∈ cards, card.id ∈ unusedIds → card.isUsed = true
  | .reported ids report =>
      ∃ skipped missing, IdsFound start cards (acceptedIds ids) report.deletedIds skipped missing ∧
        (∀ id ∈ report.deletedIds, ∀ card ∈ cards, card.id ≠ id) ∧
        report.deleted = report.deletedIds.length ∧ report.skippedUsed = skipped.length ∧
        report.notFound = missing.length
  | _ => True

section Reports

variable {start cards cards' : List RechargeCard} {w : CardWorld} {call : CardCall}
  {accepted unusedIds used missing : List ℕ} {ids : List (Option ℚ)}

theorem nodup_eraseDups (xs : List ℕ) : xs.eraseDups.Nodup := by
  induction h : xs.length using Nat.strong_induction_on generalizing xs with
  | _ n ih =>
      cases xs with
      | nil => exact List.nodup_nil
      | cons x xs =>
          rw [List.eraseDups_cons]
          have hshorter := List.length_filter_le (fun b => !b == x) xs
          rw [List.length_cons] at h
          refine List.nodup_cons.mpr ⟨fun hx => ?_, ih _ (by omega) _ rfl⟩
          have hx := (List.mem_filter.mp (List.mem_eraseDups.mp hx)).2
          simp at hx

theorem nodup_acceptedIds (ids : List (Option ℚ)) : (acceptedIds ids).Nodup :=
  (nodup_eraseDups _).sublist (List.take_sublist _ _)

theorem IdsFound.evolve (h : IdsFound start cards accepted unusedIds used missing)
    (hev : CardsEvolve cards cards') :
    IdsFound start cards' accepted unusedIds used missing where
  nodup := h.nodup
  perm := h.perm
  ofUnused := h.ofUnused
  ofUsed id hid := by
    obtain ⟨card, hcard, heq, hused⟩ := h.ofUsed id hid
    exact ⟨card, hev.used card hcard hused, heq, hused⟩
  ofMissing id hid card' hcard' := by
    obtain ⟨card, hcard, heq, -⟩ := hev.known card' hcard'
    exact heq ▸ h.ofMissing id hid card hcard

theorem CardCallOk.evolve (h : CardCallOk start cards call) (hev : CardsEvolve cards cards')
    (hheld : ∀ card ∈ cards, call.locks = some card.id → card ∈ cards') :
    CardCallOk start cards' call := by
  cases call with
  | locked input providerId cardId =>
      obtain ⟨card, hcard, rfl⟩ := h
      exact ⟨card, hheld card hcard rfl, rfl⟩
  | verified input providerId card => exact ⟨hheld card h.1 rfl, h.2⟩
  | clearing ids unusedIds skippedUsed notFound =>
      obtain ⟨used, missing, hfound, hcounts⟩ := h
      exact ⟨used, missing, hfound.evolve hev, hcounts⟩
  | counting ids unusedIds skippedUsed notFound =>
      obtain ⟨⟨used, missing, hfound, hcounts⟩, hcleared⟩ := h
      refine ⟨⟨used, missing, hfound.evolve hev, hcounts⟩, fun card' hcard' hid => ?_⟩
      obtain ⟨card, hcard, heq, hkeep⟩ := hev.known card' hcard'
      exact hkeep (hcleared card hcard (heq ▸ hid))
  | reported ids report =>
      obtain ⟨skipped, missing, hfound, hgone, hcounts⟩ := h
      refine ⟨skipped, missing, hfound.evolve hev, fun id hid card' hcard' => ?_, hcounts⟩
      obtain ⟨card, hcard, heq, -⟩ := hev.known card' hcard'
      exact heq ▸ hgone id hid card hcard
  | _ => trivial

/-- The ids of some cards, taken apart by a test of the cards. -/
theorem perm_ids (hids : (cards.map RechargeCard.id).Nodup) (haccepted : accepted.Nodup)
    (hfound : ∀ card ∈ cards, card.id ∈ accepted) (p : RechargeCard → Bool) :
    accepted.Perm (((cards.filter p).map RechargeCard.id) ++
      (((cards.filter fun card => !p card).map RechargeCard.id) ++
        accepted.filter fun id => decide (id ∉ cards.map RechargeCard.id))) := by
  have hcards : ((cards.filter p).map RechargeCard.id ++
      (cards.filter fun card => !p card).map RechargeCard.id).Perm
        (accepted.filter fun id => decide (id ∈ cards.map RechargeCard.id)) := by
    rw [← List.map_append]
    refine ((List.filter_append_perm p cards).map RechargeCard.id).trans ?_
    refine (List.perm_ext_iff_of_nodup hids (haccepted.filter _)).mpr fun id => ?_
    simp only [List.mem_filter, decide_eq_true_eq]
    refine ⟨fun hid => ⟨?_, hid⟩, And.right⟩
    obtain ⟨card, hcard, rfl⟩ := List.mem_map.mp hid
    exact hfound card hcard
  rw [← List.append_assoc]
  have hsplit := List.filter_append_perm
    (fun id => decide (id ∈ cards.map RechargeCard.id)) accepted
  simp only [← decide_not] at hsplit
  exact hsplit.symm.trans (hcards.symm.append_right _)

/-- What the first read of a deletion finds. -/
theorem cardCallOk_readCards (h : CardBooks w)
    (hstart : ∀ card ∈ w.cards, card.usedAt = none → card ∈ start) (ids : List (Option ℚ)) :
    CardCallOk start w.cards (w.readCards ids) := by
  let found := w.cards.filter fun card => decide (card.id ∈ acceptedIds ids)
  have hmem : ∀ card ∈ found, card ∈ w.cards ∧ card.id ∈ acceptedIds ids := fun card hcard =>
    ⟨(List.mem_filter.mp hcard).1, of_decide_eq_true (List.mem_filter.mp hcard).2⟩
  have hids : (found.map RechargeCard.id).Nodup :=
    h.cardIds.sublist (List.filter_sublist.map _)
  let unusedIds := (found.filter fun card => card.usedAt.isNone).map RechargeCard.id
  let used := (found.filter fun card => !card.usedAt.isNone).map RechargeCard.id
  let missing := (acceptedIds ids).filter fun id => decide (id ∉ found.map RechargeCard.id)
  have hfound : IdsFound start w.cards (acceptedIds ids) unusedIds used missing := by
    refine ⟨nodup_acceptedIds ids, perm_ids hids (nodup_acceptedIds ids)
      (fun card hcard => (hmem card hcard).2) _, fun id hid => ?_, fun id hid => ?_,
      fun id hid card hcard heq => ?_⟩
    · obtain ⟨card, hcard, rfl⟩ := List.mem_map.mp hid
      obtain ⟨hcard, hnone⟩ := List.mem_filter.mp hcard
      have hunused := Option.isNone_iff_eq_none.mp hnone
      exact ⟨card, hstart card (hmem card hcard).1 hunused, rfl, hunused⟩
    · obtain ⟨card, hcard, rfl⟩ := List.mem_map.mp hid
      obtain ⟨hcard, hsome⟩ := List.mem_filter.mp hcard
      exact ⟨card, (hmem card hcard).1, rfl, by simpa [RechargeCard.isUsed] using hsome⟩
    · obtain ⟨haccepted, hnot⟩ := List.mem_filter.mp hid
      refine of_decide_eq_true hnot (List.mem_map.mpr ⟨card, List.mem_filter.mpr ⟨hcard, ?_⟩, heq⟩)
      exact decide_eq_true (heq ▸ haccepted)
  have hskipped : used.length = found.length - unusedIds.length := by
    have hlength := (List.filter_append_perm (fun card : RechargeCard => card.usedAt.isNone)
      found).length_eq
    rw [List.length_append] at hlength
    simp only [used, unusedIds, List.length_map]
    omega
  show CardCallOk start w.cards (if unusedIds = [] then _ else _)
  split
  · rename_i hnone
    rw [hnone] at hfound
    exact ⟨used, missing, hfound, fun id hid => (List.not_mem_nil hid).elim, rfl,
      hskipped.symm, rfl⟩
  · exact ⟨used, missing, hfound, hskipped, rfl⟩

/-- What the second read makes of it. -/
theorem cardCallOk_report {skippedUsed notFound : ℕ}
    (h : CardCallOk start w.cards (.counting ids unusedIds skippedUsed notFound)) :
    CardCallOk start w.cards (.reported ids (w.report unusedIds skippedUsed notFound)) := by
  obtain ⟨⟨used, missing, hfound, rfl, rfl⟩, hcleared⟩ := h
  let remains := fun id => decide
    (id ∉ (w.cards.filter fun card => decide (card.id ∈ unusedIds)).map RechargeCard.id)
  let kept := unusedIds.filter fun id => !remains id
  have hsplit : (unusedIds.filter remains ++ kept).Perm unusedIds :=
    List.filter_append_perm remains unusedIds
  have hkept : ∀ id ∈ kept, ∃ card ∈ w.cards, card.id = id ∧ card.isUsed = true := by
    intro id hid
    obtain ⟨hunused, hremains⟩ := List.mem_filter.mp hid
    have hmem : id ∈ (w.cards.filter fun card => decide (card.id ∈ unusedIds)).map
        RechargeCard.id := by
      simpa only [remains, Bool.not_eq_true', decide_eq_false_iff_not, not_not] using hremains
    obtain ⟨card, hcard, rfl⟩ := List.mem_map.mp hmem
    have hcard := (List.mem_filter.mp hcard).1
    exact ⟨card, hcard, rfl, hcleared card hcard hunused⟩
  refine ⟨used ++ kept, missing, ⟨hfound.nodup, ?_, ?_, ?_, hfound.ofMissing⟩, ?_, rfl, ?_, rfl⟩
  · have hswap : (unusedIds ++ (used ++ missing)).Perm
        (unusedIds.filter remains ++ (used ++ kept ++ missing)) := by
      refine (hsplit.symm.append_right _).trans ?_
      rw [List.append_assoc]
      refine List.Perm.append_left _ ?_
      rw [← List.append_assoc]
      exact List.perm_append_comm.append_right missing
    exact hfound.perm.trans hswap
  · exact fun id hid => hfound.ofUnused id (List.mem_filter.mp hid).1
  · intro id hid
    rcases List.mem_append.mp hid with hid | hid
    · exact hfound.ofUsed id hid
    · exact hkept id hid
  · intro id hid card hcard heq
    obtain ⟨hunused, hgone⟩ := List.mem_filter.mp hid
    refine of_decide_eq_true hgone (List.mem_map.mpr ⟨card, List.mem_filter.mpr ⟨hcard, ?_⟩, heq⟩)
    exact decide_eq_true (heq ▸ hunused)
  · have hlength := hsplit.length_eq
    rw [List.length_append] at hlength
    rw [List.length_append]
    show used.length + (unusedIds.length - (unusedIds.filter remains).length) = _
    omega

end Reports

/-! ## The invariant -/

structure CardInv (start w : CardWorld) : Prop where
  books : CardBooks w
  fromStart : ∀ card ∈ w.cards, card.usedAt = none → card ∈ start.cards
  balances : Keyed.total CardUser.balance w.users - Keyed.total CardUser.balance start.users =
    toUnits (usedTotal w.cards) - toUnits (usedTotal start.cards)
  calls : ∀ call ∈ w.calls, CardCallOk start.cards w.cards call
  lock : ∀ id, Exclusive (fun call : CardCall => call.locks = some id) w.calls

section Inv

variable {tools} {start w w' : CardWorld} {k : ℕ} {call call' : CardCall} {ids : List ℕ}

theorem isLocked_of_mem {id : ℕ} (hcall : call ∈ w.calls) (hid : call.locks = some id) :
    w.isLocked id = true :=
  List.any_eq_true.mpr ⟨call, hcall, by simp [hid]⟩

/-- A call that has just come. -/
theorem CardInv.add (h : CardInv start w) (hok : CardCallOk start.cards w.cards call)
    (hlocks : call.locks = none) : CardInv start { w with calls := w.calls ++ [call] } where
  books := h.books.of_tables rfl rfl rfl rfl
  fromStart := h.fromStart
  balances := h.balances
  calls c hc := by
    rcases List.mem_append.mp hc with hc | hc
    · exact h.calls c hc
    · exact List.mem_singleton.mp hc ▸ hok
  lock id := (h.lock id).append_singleton fun hid => by
    rw [hlocks] at hid
    cases hid

/-- A call that moves, next to a statement on the cards. -/
theorem calls_set (h : CardInv start w) {cards' : List RechargeCard}
    (hev : CardsEvolve w.cards cards')
    (hheld : ∀ j other, j ≠ k → w.calls[j]? = some other → ∀ card ∈ w.cards,
      other.locks = some card.id → card ∈ cards')
    (hok : CardCallOk start.cards cards' call') :
    ∀ c ∈ w.calls.set k call', CardCallOk start.cards cards' c := by
  intro c hc
  rcases mem_set_cases hc with rfl | ⟨j, hj, hother⟩
  · exact hok
  · exact (h.calls c (List.mem_of_getElem? hother)).evolve hev (hheld j c hj hother)

/-- A call that moves; it may take a lock that nobody has. -/
theorem CardInv.put (h : CardInv start w) (hk : w.calls[k]? = some call)
    (hok : CardCallOk start.cards w.cards call')
    (hlocks : ∀ id, call'.locks = some id → call.locks = some id ∨ w.isLocked id = false) :
    CardInv start (w.put k call') where
  books := h.books.of_tables rfl rfl rfl rfl
  fromStart := h.fromStart
  balances := h.balances
  calls := calls_set h ⟨fun _ hcard _ => hcard, fun card hcard => ⟨card, hcard, rfl, id⟩⟩
    (fun _ _ _ _ _ hcard _ => hcard) hok
  lock id := (h.lock id).set hk fun hid => by
    refine (hlocks id hid).imp_right fun hfree other hother hheld => ?_
    rw [isLocked_of_mem hother hheld] at hfree
    cases hfree

/-- A call that ends, or goes on without a lock. -/
theorem CardInv.put_free (h : CardInv start w) (hk : w.calls[k]? = some call)
    (hok : CardCallOk start.cards w.cards call') (hlocks : call'.locks = none) :
    CardInv start (w.put k call') :=
  h.put hk hok fun id hid => by
    rw [hlocks] at hid
    cases hid

/-- A deletion that did not have to wait. -/
theorem CardInv.without (h : CardInv start w) (hk : w.calls[k]? = some call)
    (hwait : w.mustWait ids = false)
    (hok : CardCallOk start.cards (w.without ids).cards call') (hlocks : call'.locks = none) :
    CardInv start ((w.without ids).put k call') where
  books := (h.books.without ids).of_tables rfl rfl rfl rfl
  fromStart card hcard := h.fromStart card (mem_without.mp hcard).1
  balances := by
    show _ = toUnits (usedTotal (w.without ids).cards) - _
    rw [usedTotal_without]
    exact h.balances
  calls := calls_set h (evolve_without w ids)
    (fun _ _ _ hother _ hcard hheld => mem_without_of_locked hwait hcard
      (isLocked_of_mem (List.mem_of_getElem? hother) hheld)) hok
  lock id := (h.lock id).set hk fun hid => by
    rw [hlocks] at hid
    cases hid

/-- A redemption that is committed. -/
theorem CardInv.redeemedBy {input : RedeemInput} {providerId : ℕ} {card : RechargeCard}
    {orderNo : String} {now : Time} {user : CardUser} {balance : Units}
    {result : Except RechargeCardError RedeemRechargeCardResult} (h : CardInv start w)
    (hk : w.calls[k]? = some (.verified input providerId card))
    (huser : Keyed.lookup CardUser.id input.userId w.users = some user) :
    CardInv start ((w.redeemedBy input providerId card orderNo now balance).put k
      (.redeemed result)) := by
  obtain ⟨hcard, hunused⟩ := h.calls _ (List.mem_of_getElem? hk)
  obtain ⟨husers, hid⟩ := Keyed.mem_of_lookup huser
  have hbooks : CardBooks (w.redeemedBy input providerId card orderNo now balance) :=
    h.books.redeemedBy hcard hunused
  have hev : CardsEvolve w.cards (w.useCard input card now) :=
    evolve_useCard h.books hcard hunused
  refine ⟨hbooks.of_tables rfl rfl rfl rfl, fun row hrow hnone => ?_, ?_, ?_, fun id => ?_⟩
  · rcases (mem_useCard h.books hcard).mp hrow with rfl | ⟨hrow, -⟩
    · cases hnone
    · exact h.fromStart row hrow hnone
  · show Keyed.total CardUser.balance (Keyed.modify CardUser.id input.userId _ w.users) - _ =
      toUnits (usedTotal (w.useCard input card now)) - _
    rw [← hid, Keyed.total_modify h.books.userIds husers,
      usedTotal_useCard h.books hcard hunused]
    have := h.balances
    unfold toUnits at this ⊢
    linarith
  · refine calls_set h hev ?_ trivial
    intro j other hj hother row hrow hheld
    refine (mem_useCard h.books hcard).mpr (.inr ⟨hrow, fun heq => hj ?_⟩)
    -- two calls that have the lock of the card would be one
    exact h.lock card.id j k other _ hother hk (heq ▸ hheld) rfl
  · refine (h.lock id).set hk fun hlocks => ?_
    cases hlocks

theorem CardInv.next (h : CardInv start w) (hstep : w.next tools k = some w') :
    CardInv start w' := by
  unfold CardWorld.next at hstep
  split at hstep
  · rename_i input hk
    split at hstep <;> obtain rfl := Option.some.inj hstep
    · exact h.put_free hk trivial rfl
    · exact h.put_free hk trivial rfl
  · rename_i input providerId hk
    split at hstep
    · obtain rfl := Option.some.inj hstep
      exact h.put_free hk trivial rfl
    · rename_i card hfind
      split at hstep
      · cases hstep
      · rename_i hfree
        obtain rfl := Option.some.inj hstep
        refine h.put hk ⟨card, List.mem_of_find?_eq_some hfind, rfl⟩ fun id hid => .inr ?_
        rw [← Option.some.inj hid]
        exact Bool.eq_false_iff.mpr hfree
  · rename_i input providerId cardId hk
    split at hstep
    · obtain rfl := Option.some.inj hstep
      exact h.put_free hk trivial rfl
    · rename_i card hfound
      obtain ⟨hcard, hid⟩ := Keyed.mem_of_lookup hfound
      split at hstep
      · obtain rfl := Option.some.inj hstep
        exact h.put_free hk trivial rfl
      · rename_i hunused
        split at hstep <;> obtain rfl := Option.some.inj hstep
        · exact h.put_free hk trivial rfl
        · refine h.put hk ⟨hcard, by simpa using hunused⟩ fun id hlocks => .inl ?_
          rw [← hlocks]
          exact congrArg some hid.symm
  · rename_i id hk
    split at hstep
    · obtain rfl := Option.some.inj hstep
      exact h.put_free hk trivial rfl
    · split at hstep <;> obtain rfl := Option.some.inj hstep
      · exact h.put_free hk trivial rfl
      · exact h.put_free hk trivial rfl
  · rename_i id hk
    split at hstep
    · cases hstep
    · rename_i hwait
      obtain rfl := Option.some.inj hstep
      exact h.without hk (Bool.eq_false_iff.mpr hwait) trivial rfl
  · rename_i ids hk
    obtain rfl := Option.some.inj hstep
    have hread := cardCallOk_readCards h.books h.fromStart ids
    refine h.put_free hk hread ?_
    simp only [CardWorld.readCards]
    split <;> rfl
  · rename_i ids unusedIds skippedUsed notFound hk
    split at hstep
    · cases hstep
    · rename_i hwait
      obtain rfl := Option.some.inj hstep
      have hfound := (h.calls _ (List.mem_of_getElem? hk)).evolve
        (evolve_without w unusedIds) fun _ _ hlocks => by cases hlocks
      refine h.without hk (Bool.eq_false_iff.mpr hwait) ⟨hfound, fun card hcard hid => ?_⟩ rfl
      exact (mem_without.mp hcard).2 hid
  · rename_i ids unusedIds skippedUsed notFound hk
    obtain rfl := Option.some.inj hstep
    exact h.put_free hk (cardCallOk_report (h.calls _ (List.mem_of_getElem? hk))) rfl
  · cases hstep

theorem CardInv.commit {orderNo : String} {now : Time} (h : CardInv start w)
    (hstep : w.commit k orderNo now = some w') : CardInv start w' := by
  unfold CardWorld.commit at hstep
  split at hstep
  · rename_i input providerId card hk
    split at hstep
    · obtain rfl := Option.some.inj hstep
      exact h.put_free hk trivial rfl
    · split at hstep
      · obtain rfl := Option.some.inj hstep
        exact h.put_free hk trivial rfl
      · rename_i user huser
        obtain rfl := Option.some.inj hstep
        exact h.redeemedBy hk huser
  · cases hstep

/-- One step. -/
theorem CardInv.step {i : CardStep} (h : CardInv start w)
    (hstep : cardStep tools w i = some w') : CardInv start w' := by
  cases i with
  | redeem userId cardNo password =>
      obtain rfl := Option.some.inj hstep
      have hnew : CardCallOk start.cards w.cards (redeemRechargeCard tools userId cardNo password) ∧
          (redeemRechargeCard tools userId cardNo password).locks = none := by
        simp only [redeemRechargeCard]
        split <;> exact ⟨trivial, rfl⟩
      exact h.add hnew.1 hnew.2
  | delete id =>
      obtain rfl := Option.some.inj hstep
      exact h.add trivial rfl
  | deleteMany ids =>
      obtain rfl := Option.some.inj hstep
      unfold deleteRechargeCards
      split
      · rename_i hnone
        refine h.add ⟨[], [], ⟨nodup_acceptedIds ids, ?_, ?_, ?_, ?_⟩, ?_, rfl, rfl, rfl⟩ rfl
        · rw [hnone]
          exact .nil
        all_goals exact fun id hid => (List.not_mem_nil hid).elim
      · exact h.add trivial rfl
  | setProvider providerId =>
      obtain rfl := Option.some.inj hstep
      exact ⟨h.books.of_tables rfl rfl rfl rfl, h.fromStart, h.balances, h.calls, h.lock⟩
  | next k => exact h.next hstep
  | commit k orderNo now => exact h.commit hstep
  | rollback k =>
      simp only [cardStep] at hstep
      split at hstep
      all_goals first
        | cases hstep; done
        | rename_i hk
          obtain rfl := Option.some.inj hstep
          exact h.put_free hk trivial rfl

/-! ## What a step may do -/

/-- A step credits one card, or nothing. -/
theorem CardInv.credits {i : CardStep} (h : CardInv start w)
    (hstep : cardStep tools w i = some w') :
    w'.users = w.users ∧ w'.orders = w.orders ∨ ∃ card order, Credit w w' card order := by
  cases i with
  | redeem userId cardNo password =>
      obtain rfl := Option.some.inj hstep
      exact .inl ⟨rfl, rfl⟩
  | delete id =>
      obtain rfl := Option.some.inj hstep
      exact .inl ⟨rfl, rfl⟩
  | deleteMany ids =>
      obtain rfl := Option.some.inj hstep
      exact .inl ⟨rfl, rfl⟩
  | setProvider providerId =>
      obtain rfl := Option.some.inj hstep
      exact .inl ⟨rfl, rfl⟩
  | next k =>
      left
      simp only [cardStep, CardWorld.next] at hstep
      repeat' split at hstep
      all_goals first
        | cases hstep; done
        | obtain rfl := Option.some.inj hstep
          exact ⟨rfl, rfl⟩
  | commit k orderNo now =>
      simp only [cardStep, CardWorld.commit] at hstep
      split at hstep
      · rename_i input providerId card hk
        split at hstep
        · obtain rfl := Option.some.inj hstep
          exact .inl ⟨rfl, rfl⟩
        · split at hstep
          · obtain rfl := Option.some.inj hstep
            exact .inl ⟨rfl, rfl⟩
          · rename_i user huser
            obtain rfl := Option.some.inj hstep
            obtain ⟨hcard, hunused⟩ := h.calls _ (List.mem_of_getElem? hk)
            exact .inr ⟨card, w.order input providerId card orderNo, hcard, hunused, rfl, rfl, rfl,
              ⟨user, Keyed.mem_of_lookup huser⟩, rfl,
              ⟨_, (mem_useCard h.books hcard).mpr (.inl rfl), rfl, rfl⟩⟩
      · cases hstep
  | rollback k =>
      left
      simp only [cardStep] at hstep
      split at hstep
      all_goals first
        | cases hstep; done
        | obtain rfl := Option.some.inj hstep
          exact ⟨rfl, rfl⟩

/-- A used card is never deleted. -/
theorem CardInv.kept {i : CardStep} {card : RechargeCard} (h : CardInv start w)
    (hstep : cardStep tools w i = some w') (hcard : card ∈ w.cards)
    (hused : card.isUsed = true) : card ∈ w'.cards := by
  cases i with
  | redeem userId cardNo password => exact Option.some.inj hstep ▸ hcard
  | delete id => exact Option.some.inj hstep ▸ hcard
  | deleteMany ids => exact Option.some.inj hstep ▸ hcard
  | setProvider providerId => exact Option.some.inj hstep ▸ hcard
  | next k =>
      simp only [cardStep, CardWorld.next] at hstep
      repeat' split at hstep
      all_goals first
        | cases hstep; done
        | obtain rfl := Option.some.inj hstep
          first
            | exact hcard
            | exact (evolve_without w _).used card hcard hused
  | commit k orderNo now =>
      simp only [cardStep, CardWorld.commit] at hstep
      split at hstep
      · rename_i hk
        obtain ⟨hverified, hunused⟩ := h.calls _ (List.mem_of_getElem? hk)
        split at hstep
        · exact Option.some.inj hstep ▸ hcard
        · split at hstep
          · exact Option.some.inj hstep ▸ hcard
          · obtain rfl := Option.some.inj hstep
            exact (evolve_useCard h.books hverified hunused).used card hcard hused
      · cases hstep
  | rollback k =>
      simp only [cardStep] at hstep
      split at hstep
      all_goals first
        | cases hstep; done
        | exact Option.some.inj hstep ▸ hcard

theorem CardInv.conserved (h : CardInv start w) : CardsConserved tools start w where
  once := h.books.once
  credits _ _ hstep := h.credits hstep
  balances := h.balances
  orders := h.books.linked
  kept _ _ hstep _ hcard hused := h.kept hstep hcard hused
  reports ids report hreport := by
    obtain ⟨skipped, missing, hfound, hgone, hdeleted, hskipped, hmissing⟩ := h.calls _ hreport
    refine ⟨skipped, missing, hfound.nodup, hfound.perm, hdeleted, hskipped, hmissing,
      fun id hid => ⟨hfound.ofUnused id hid, hgone id hid⟩, hfound.ofUsed, hfound.ofMissing, ?_⟩
    intro order horder id hid hof
    obtain ⟨card, hcard, hcardId, -⟩ := h.books.credited order horder id hof
    exact hgone id hid card hcard hcardId

end Inv

open Machine

/-- In every run from tables whose books are in order. -/
theorem recharge_cards_conserved {start w : CardWorld} (hbooks : CardBooks start)
    (hcalls : start.calls = []) (hrun : Reach (cardStep tools) free start w) :
    CardsConserved tools start w := by
  have hstart : CardInv start start :=
    { books := hbooks
      fromStart := fun _ hcard _ => hcard
      balances := by rw [sub_self, sub_self]
      calls := fun call hcall => by
        rw [hcalls] at hcall
        cases hcall
      lock := fun id => by
        rw [hcalls]
        exact Exclusive.nil }
  exact (hrun.invariant hstart fun h _ hstep => h.step hstep).conserved

/-- Passwords that are their own hash, and letters of ASCII. -/
def plainCardTools : CardTools where
  compare password hash := password == hash
  toUpperCase text := text.map Char.toUpper

def twoCards : CardWorld where
  providerId := some 7
  cards := [{ id := 1, cardNo := "RCAB", passwordHash := "PW", amount := 5000 },
    { id := 2, cardNo := "RCCD", passwordHash := "PW", amount := 700 }]
  orders := []
  nextOrder := 1
  users := [⟨3, 0⟩]

/-- Two cards are deleted while one of them is redeemed. -/
def raceOfCards : List CardStep :=
  [.deleteMany [some 1, some 2, some 9, none], .redeem 3 " rc-ab" "pw", .next 0, .next 1, .next 1,
    .next 1, .commit 1 "R1" 50, .next 0, .next 0]

theorem recharge_cards_conserved_race :
    ∃ w, exec (cardStep plainCardTools) twoCards raceOfCards = some w ∧
      w.calls[0]? = some (.reported [some 1, some 2, some 9, none] ⟨1, 1, 1, [2]⟩) ∧
        w.users = [⟨3, toUnits 5000⟩] ∧ CardsConserved plainCardTools twoCards w := by
  have hbooks : CardBooks twoCards := by
    refine ⟨by decide, by decide, by decide, by decide, by decide, ?_⟩
    exact fun order horder => by cases horder
  have hview : (exec (cardStep plainCardTools) twoCards raceOfCards).map
      (fun w => (w.calls[0]?, w.users)) =
        some (some (.reported [some 1, some 2, some 9, none] ⟨1, 1, 1, [2]⟩),
          [⟨3, toUnits 5000⟩]) := by
    decide +kernel
  obtain ⟨w, hw, hafter⟩ := Option.map_eq_some_iff.mp hview
  exact ⟨w, hw, congrArg Prod.fst hafter, congrArg Prod.snd hafter,
    recharge_cards_conserved plainCardTools hbooks rfl (reach_of_exec hw)⟩

end Incudal
