/-
# `CallbackRuns` — payments are not lost between callbacks

Two things are asked of every run of the handler.  An order is completed only
after a request that verifies, reports a payment and names an accepted amount.
And a request that does all this for an order is answered with success only if
the order is completed; otherwise the gateway hears of an error and comes back.

The second can fail.  The crypto gateway keeps its trade number over the states
of a payment, and a notice of a cancelled or failed payment is marked in
`payment_callbacks` under that number although the order is not completed: a
payment that arrives under the same number later is taken for a duplicate.
`distinguishes` is the condition on a step that no such mark stands in the way
of a payment; in the runs that meet it payments are kept (`payments_kept`), and
`payment_swallowed` is a run that does not.
-/
import Incudal.PaymentCallbacks
import Incudal.RechargeRuns

namespace Incudal

/-- The request verifies, reports a payment and names an accepted amount for the order. -/
structure CallbackRequest.Pays (provider : PaymentProvider) (d : CallbackRequest)
    (r : RechargeRecord) : Prop where
  signature : (provider.config d.preliminary).verifies d.receivedAt d.data = true
  extracted : noticeOf provider.type d.data = .ok d.notice
  order : d.notice.orderNo = r.orderNo
  channel : r.providerId = provider.id
  paid : d.notice.state = .paid
  amount : amountAccepted provider.type (d.notice.amount.getD 0) r.payable = true

/-- Completed orders are paid for, and a payment answered with success has its order completed. -/
structure CallbackWorld.PaymentsKept (provider : PaymentProvider) (w : CallbackWorld) : Prop where
  completed : ∀ n r, w.db.find n = some r → r.status = .completed →
    ∃ d ∈ w.deliveries, d.Pays provider r
  answered : ∀ d ∈ w.deliveries, ∀ r, w.db.find d.notice.orderNo = some r → d.Pays provider r →
    ∀ body, d.stage = .answered (.success body) → r.status = .completed

/-- A notice that a payment was cancelled or has failed. -/
def PaymentNotice.refuses (n : PaymentNotice) : Bool :=
  match n.state with
  | .cancelled | .failed => true
  | .paid | .pending => false

/-- No notice that refuses the payment has been marked under the trade number of `d`. -/
def CallbackWorld.unmarked (w : CallbackWorld) (d : Delivery) : Bool :=
  w.deliveries.all fun e =>
    !(e.recorded && e.notice.refuses && e.notice.orderNo == d.notice.orderNo &&
      e.tradeNoForIndex == d.tradeNoForIndex)

/-- The step does not take a payment for an order that is not completed through
the duplicate check after a refusing notice was marked under its trade number. -/
def distinguishes (provider : PaymentProvider) (w : CallbackWorld) : CallbackEvent → Bool
  | .proceed id =>
      match w.delivery id with
      | none => true
      | some d =>
          match d.stage, w.db.find d.notice.orderNo with
          | .filter _, some r =>
              r.status == .completed || !(d.notice.state == .paid) ||
                !(r.providerId == provider.id) ||
                !amountAccepted provider.type (d.notice.amount.getD 0) r.payable || w.unmarked d
          | _, _ => true
  | _ => true

/-! ## How orders change -/

section Orders

variable {db db' : RechargeDb} {n : String} {r r' record : RechargeRecord}

/-- What stays of an order. -/
structure RechargeRecord.Becomes (r r' : RechargeRecord) : Prop where
  orderNo : r'.orderNo = r.orderNo
  providerId : r'.providerId = r.providerId
  amount : r'.amount = r.amount
  payable : r'.payable = r.payable
  completed : r.status = .completed → r'.status = .completed

theorem RechargeRecord.Becomes.refl (r : RechargeRecord) : r.Becomes r := ⟨rfl, rfl, rfl, rfl, id⟩

theorem RechargeRecord.Becomes.trans {r'' : RechargeRecord} (h : r.Becomes r')
    (h' : r'.Becomes r'') : r.Becomes r'' :=
  ⟨h'.orderNo.trans h.orderNo, h'.providerId.trans h.providerId, h'.amount.trans h.amount,
    h'.payable.trans h.payable, fun hr => h'.completed (h.completed hr)⟩

theorem CallbackRequest.Pays.becomes {provider : PaymentProvider} {d : CallbackRequest} (h : d.Pays provider r)
    (hr : r.Becomes r') : d.Pays provider r' :=
  ⟨h.signature, h.extracted, h.order.trans hr.orderNo.symm, hr.providerId.trans h.channel, h.paid,
    hr.payable ▸ h.amount⟩

theorem CallbackRequest.Pays.of_becomes {provider : PaymentProvider} {d : CallbackRequest}
    (h : d.Pays provider r') (hr : r.Becomes r') : d.Pays provider r :=
  ⟨h.signature, h.extracted, h.order.trans hr.orderNo, hr.providerId.symm.trans h.channel, h.paid,
    hr.payable ▸ h.amount⟩

/-- Orders are kept, and none is completed that was not. -/
structure OrdersEvolve (db db' : RechargeDb) : Prop where
  keys : (db.orders.map RechargeRecord.orderNo).Nodup →
    (db'.orders.map RechargeRecord.orderNo).Nodup
  kept : ∀ n r, db.find n = some r → ∃ r', db'.find n = some r' ∧ r.Becomes r'

/-- No order is completed that was not. -/
def NoneCompleted (db db' : RechargeDb) : Prop :=
  ∀ n r', db'.find n = some r' → r'.status = .completed →
    ∃ r, db.find n = some r ∧ r.Becomes r' ∧ r.status = .completed

theorem OrdersEvolve.refl (db : RechargeDb) : OrdersEvolve db db :=
  ⟨id, fun _ r hr => ⟨r, hr, .refl r⟩⟩

theorem NoneCompleted.refl (db : RechargeDb) : NoneCompleted db db :=
  fun _ r hr hcompleted => ⟨r, hr, .refl r, hcompleted⟩

theorem find_rewrite {f : RechargeRecord → RechargeRecord}
    (hkey : ∀ r, (f r).orderNo = r.orderNo) (hr : db.find n = some r) :
    (db.rewrite n f).find n = some (f r) :=
  Keyed.lookup_modify_self hkey hr

theorem find_rewrite_of_ne {f : RechargeRecord → RechargeRecord} {m : String}
    (hkey : ∀ r, (f r).orderNo = r.orderNo) (hm : m ≠ n) :
    (db.rewrite n f).find m = db.find m :=
  Keyed.lookup_modify_of_ne hkey hm

theorem ordersEvolve_rewrite {f : RechargeRecord → RechargeRecord}
    (hkey : ∀ r, (f r).orderNo = r.orderNo) (hr : db.find n = some r) (hf : r.Becomes (f r)) :
    OrdersEvolve db (db.rewrite n f) := by
  refine ⟨fun hn => ?_, fun m s hs => ?_⟩
  · show ((Keyed.modify _ _ _ _).map RechargeRecord.orderNo).Nodup
    rwa [Keyed.map_key_modify hkey]
  · by_cases hm : m = n
    · subst hm
      obtain rfl := Option.some.inj (hr.symm.trans hs)
      exact ⟨f r, find_rewrite hkey hr, hf⟩
    · exact ⟨s, (find_rewrite_of_ne hkey hm).trans hs, .refl s⟩

theorem noneCompleted_rewrite {f : RechargeRecord → RechargeRecord}
    (hkey : ∀ r, (f r).orderNo = r.orderNo) (hr : db.find n = some r) (hf : r.Becomes (f r))
    (hstatus : (f r).status = .completed → r.status = .completed) :
    NoneCompleted db (db.rewrite n f) := by
  intro m s hs hcompleted
  by_cases hm : m = n
  · subst hm
    obtain rfl := Option.some.inj ((find_rewrite hkey hr).symm.trans hs)
    exact ⟨r, hr, hf, hstatus hcompleted⟩
  · exact ⟨s, (find_rewrite_of_ne hkey hm).symm.trans hs, .refl s, hcompleted⟩

/-- A guarded update of an order that stays what it is and is not completed by it. -/
theorem guardedUpdate_evolve {idle : List RechargeStatus} {f : RechargeRecord → RechargeRecord}
    (h : guardedUpdate db n idle f = .ok db') (hkey : ∀ r, (f r).orderNo = r.orderNo)
    (hf : ∀ r, db.find n = some r → r.status.open = true → r.Becomes (f r))
    (hstatus : ∀ r, (f r).status ≠ .completed) :
    OrdersEvolve db db' ∧ NoneCompleted db db' := by
  simp only [guardedUpdate] at h
  cases hr : db.find n with
  | none => simp [hr] at h
  | some r =>
      simp only [hr] at h
      split at h
      · rename_i hopen
        obtain rfl := Except.ok.inj h
        exact ⟨ordersEvolve_rewrite hkey hr (hf r hr hopen),
          noneCompleted_rewrite hkey hr (hf r hr hopen) fun hc => absurd hc (hstatus r)⟩
      · split at h
        · obtain rfl := Except.ok.inj h
          exact ⟨.refl db, .refl db⟩
        · cases h

theorem not_completed_of_open (h : r.status.open = true) : r.status ≠ .completed := by
  intro hcompleted
  rw [hcompleted] at h
  cases h

theorem getRechargePayableAmount_merge {amount : Cents} {details : Option RechargePaymentDetails}
    {status : String} :
    getRechargePayableAmount amount (some (mergeHeleketPaymentDetails details status)) =
      getRechargePayableAmount amount details := by
  cases details <;> rfl

/-- Details merged from an older copy of the order do not change what is to be paid. -/
theorem payable_merge (h : record.Becomes r) {status : String} :
    getRechargePayableAmount r.amount (some (mergeHeleketPaymentDetails record.paymentDetails status)) =
      r.payable := by
  rw [getRechargePayableAmount_merge, h.amount]
  exact h.payable.symm

theorem createRechargeOrder_evolve {now : Time} {input : CreateRechargeOrderInput}
    (h : createRechargeOrder db now input = .ok db') :
    OrdersEvolve db db' ∧ NoneCompleted db db' := by
  obtain ⟨new, hfresh, hpending, rfl⟩ := createRechargeOrder_eq h
  refine ⟨⟨fun hn => Keyed.nodup_append_singleton hn (Keyed.lookup_eq_none_iff.mp hfresh),
    fun m s hs => ⟨s, find_append_of_some hfresh hs, .refl s⟩⟩, fun m s hs hcompleted => ?_⟩
  rw [find_append hfresh] at hs
  split at hs
  · obtain rfl := Option.some.inj hs
    exact absurd (hpending.symm.trans hcompleted) (by simp)
  · exact ⟨s, hs, .refl s, hcompleted⟩

/-- A transaction that is rolled back changes nothing. -/
theorem after_evolve {result : Except RechargeError RechargeDb}
    (h : ∀ db', result = .ok db' → OrdersEvolve db db' ∧ NoneCompleted db db') :
    OrdersEvolve db (db.after result) ∧ NoneCompleted db (db.after result) := by
  cases result with
  | ok db' => exact h db' rfl
  | error e => exact ⟨.refl db, .refl db⟩

theorem cancelRecharge_evolve (h : cancelRecharge db n none = .ok db') :
    OrdersEvolve db db' ∧ NoneCompleted db db' :=
  guardedUpdate_evolve h (fun _ => rfl)
    (fun _ _ hopen => ⟨rfl, rfl, rfl, rfl, fun hc => absurd hc (not_completed_of_open hopen)⟩)
    fun _ => by simp

theorem close_evolve {status message : String} {cancelled : Prop} [Decidable cancelled]
    (hrecord : ∀ r, db.find n = some r → record.Becomes r)
    (h : (if cancelled then
        cancelRecharge db n (some (mergeHeleketPaymentDetails record.paymentDetails status))
      else failRecharge db n message
        (some (mergeHeleketPaymentDetails record.paymentDetails status))) = .ok db') :
    OrdersEvolve db db' ∧ NoneCompleted db db' := by
  split at h
  · refine guardedUpdate_evolve h (fun _ => rfl) (fun r hr hopen => ?_) fun _ => by simp
    exact ⟨rfl, rfl, rfl, payable_merge (hrecord r hr),
      fun hc => absurd hc (not_completed_of_open hopen)⟩
  · refine guardedUpdate_evolve h (fun _ => rfl) (fun r hr hopen => ?_) fun _ => by simp
    exact ⟨rfl, rfl, rfl, payable_merge (hrecord r hr),
      fun hc => absurd hc (not_completed_of_open hopen)⟩

theorem metadata_evolve {status : String} {tradeNo : Option (Option String)}
    (hrecord : ∀ r, db.find n = some r → record.Becomes r)
    (h : updateRechargeOrderMetadata db n tradeNo
      (some (mergeHeleketPaymentDetails record.paymentDetails status)) = .ok db') :
    OrdersEvolve db db' ∧ NoneCompleted db db' := by
  simp only [updateRechargeOrderMetadata] at h
  cases hr : db.find n with
  | none => simp [hr] at h
  | some r =>
      simp only [hr] at h
      obtain rfl := Except.ok.inj h
      have hbecomes : r.Becomes { r with
          tradeNo := tradeNo.getD r.tradeNo
          paymentDetails := (some (mergeHeleketPaymentDetails record.paymentDetails status)).or
            r.paymentDetails } :=
        ⟨rfl, rfl, rfl, payable_merge (hrecord r hr), id⟩
      exact ⟨ordersEvolve_rewrite (fun _ => rfl) hr hbecomes,
        noneCompleted_rewrite (fun _ => rfl) hr hbecomes id⟩

theorem expire_evolve (p : RechargeRecord → Bool) :
    OrdersEvolve db (db.expire p) ∧ NoneCompleted db (db.expire p) := by
  have hkey : ∀ r : RechargeRecord, (if (p r && r.status == .pending) = true then
      { r with status := .cancelled } else r).orderNo = r.orderNo := by
    intro r
    split <;> rfl
  have hbecomes : ∀ r : RechargeRecord, r.Becomes (if (p r && r.status == .pending) = true then
      { r with status := .cancelled } else r) := by
    intro r
    split
    · rename_i hp
      simp only [Bool.and_eq_true, beq_iff_eq] at hp
      exact ⟨rfl, rfl, rfl, rfl, fun hc => absurd (hc.symm.trans hp.2) (by simp)⟩
    · exact .refl r
  have hfind : ∀ m, (db.expire p).find m = (db.find m).map fun r =>
      if p r && r.status == .pending then { r with status := .cancelled } else r :=
    fun m => Keyed.lookup_map hkey
  refine ⟨⟨fun hn => ?_, fun m s hs => ⟨_, by rw [hfind, hs]; rfl, hbecomes s⟩⟩,
    fun m s hs hcompleted => ?_⟩
  · have hkeys : (db.expire p).orders.map RechargeRecord.orderNo =
        db.orders.map RechargeRecord.orderNo := by
      simp only [RechargeDb.expire, List.map_map]
      exact List.map_congr_left fun r _ => hkey r
    exact hkeys ▸ hn
  · rw [hfind] at hs
    obtain ⟨r, hr, rfl⟩ := Option.map_eq_some_iff.mp hs
    refine ⟨r, hr, hbecomes r, ?_⟩
    split at hcompleted
    · cases hcompleted
    · exact hcompleted

end Orders

/-! ## What an activation knows -/

section Activations

variable {provider : PaymentProvider} {db db' : RechargeDb} {w w' : CallbackWorld}
  {d : Delivery} {r r' record : RechargeRecord}

/-- The activation holds an earlier copy of its order. -/
def CallbackRequest.Knows (db : RechargeDb) (d : CallbackRequest) (record : RechargeRecord) : Prop :=
  ∃ r, db.find d.notice.orderNo = some r ∧ record.Becomes r

/-- Its order is there, and completed if the notice pays for it. -/
def CallbackRequest.Settled (provider : PaymentProvider) (db : RechargeDb) (d : CallbackRequest) : Prop :=
  ∃ r, db.find d.notice.orderNo = some r ∧ (d.Pays provider r → r.status = .completed)

/-- What holds of the activation at its stage. -/
def Delivery.StageOk (provider : PaymentProvider) (db : RechargeDb) (d : Delivery) : Prop :=
  match d.stage with
  | .filter (some record) => d.Knows db record
  | .filter none | .load => True
  | .metadata record => d.notice.state = .pending ∧ d.Knows db record
  | .close record => d.notice.refuses = true ∧ d.Knows db record
  | .begin record => d.Knows db record ∧ d.Pays provider record
  | .commit c =>
      c.record.orderNo = d.notice.orderNo ∧ d.Knows db c.record ∧ d.Pays provider c.record ∧
        getRechargePayableAmount c.record.amount (c.data.paymentDetails.or c.record.paymentDetails) =
          c.record.payable
  | .recheck => d.notice.state = .paid
  | .mark inTry =>
      (∃ r, db.find d.notice.orderNo = some r ∧ (r.status = .completed ∨ d.notice.refuses = true)) ∧
        (inTry = true → d.notice.state = .paid)
  | .answered (.success _) => d.notice.state = .paid → d.Settled provider db
  | .answered (.error _ _) => True

theorem CallbackRequest.Knows.evolve {d : CallbackRequest} (h : d.Knows db record) (hdb : OrdersEvolve db db') :
    d.Knows db' record := by
  obtain ⟨r, hr, hbecomes⟩ := h
  obtain ⟨r', hr', hbecomes'⟩ := hdb.kept _ r hr
  exact ⟨r', hr', hbecomes.trans hbecomes'⟩

theorem CallbackRequest.Settled.evolve {d : CallbackRequest} (h : d.Settled provider db) (hdb : OrdersEvolve db db') :
    d.Settled provider db' := by
  obtain ⟨r, hr, hpays⟩ := h
  obtain ⟨r', hr', hbecomes⟩ := hdb.kept _ r hr
  exact ⟨r', hr', fun h => hbecomes.completed (hpays (h.of_becomes hbecomes))⟩

theorem Delivery.StageOk.evolve (h : d.StageOk provider db) (hdb : OrdersEvolve db db') :
    d.StageOk provider db' := by
  simp only [Delivery.StageOk] at h ⊢
  cases hstage : d.stage with
  | filter record =>
      cases record with
      | none => trivial
      | some record =>
          rw [hstage] at h
          exact h.evolve hdb
  | load => trivial
  | metadata record =>
      rw [hstage] at h
      exact ⟨h.1, h.2.evolve hdb⟩
  | close record =>
      rw [hstage] at h
      exact ⟨h.1, h.2.evolve hdb⟩
  | begin record =>
      rw [hstage] at h
      exact ⟨h.1.evolve hdb, h.2⟩
  | commit c =>
      rw [hstage] at h
      exact ⟨h.1, h.2.1.evolve hdb, h.2.2⟩
  | recheck =>
      rw [hstage] at h
      exact h
  | mark inTry =>
      rw [hstage] at h
      obtain ⟨⟨r, hr, hcases⟩, htry⟩ := h
      obtain ⟨r', hr', hbecomes⟩ := hdb.kept _ r hr
      exact ⟨⟨r', hr', hcases.imp_left hbecomes.completed⟩, htry⟩
  | answered reply =>
      rw [hstage] at h
      cases reply with
      | success body => exact fun hpaid => (h hpaid).evolve hdb
      | error code message => trivial

/-- The request carries a signature, and the notice is what it says. -/
def CallbackRequest.Admitted (provider : PaymentProvider) (d : CallbackRequest) : Prop :=
  (provider.config d.preliminary).verifies d.receivedAt d.data = true ∧
    noticeOf provider.type d.data = .ok d.notice

theorem admitCallback_ok {now : Time} {ipAllowed : Bool} {preliminary : Option RechargeRecord}
    {data : CallbackData} {notice : PaymentNotice}
    (h : admitCallback provider now ipAllowed preliminary data = .ok notice) :
    (provider.config preliminary).verifies now data = true ∧
      noticeOf provider.type data = .ok notice := by
  simp only [admitCallback] at h
  split at h
  · cases h
  · split at h
    · cases h
    · split at h
      · cases h
      · rename_i hverified
        split at h
        · cases h
        · exact ⟨by simpa using hverified, h⟩

/-- What is decided about an order is right for every activation that knows it. -/
theorem decideCallback_ok (hd : d.Admitted provider) (hknows : d.Knows db record)
    (hrecord : record.orderNo = d.notice.orderNo) :
    { d with stage := decideCallback provider d.notice record }.StageOk provider db := by
  obtain ⟨r, hr, hbecomes⟩ := hknows
  simp only [decideCallback]
  split
  · trivial
  · rename_i hprovider
    split
    · rename_i hstate
      have hrefuses : d.notice.state ≠ .pending → d.notice.refuses = true := by
        intro hpending
        simp only [PaymentNotice.refuses]
        cases hs : d.notice.state <;> simp_all
      split
      · rename_i hpending
        exact ⟨hpending, r, hr, hbecomes⟩
      · rename_i hpending
        split
        · rename_i hcompleted
          exact ⟨⟨r, hr, .inl (hbecomes.completed hcompleted)⟩, nofun⟩
        · split
          · exact ⟨hrefuses hpending, r, hr, hbecomes⟩
          · exact ⟨⟨r, hr, .inr (hrefuses hpending)⟩, nofun⟩
    · rename_i hpaid
      split
      · trivial
      · rename_i hamount
        split
        · rename_i hcompleted
          exact ⟨⟨r, hr, .inl (hbecomes.completed hcompleted)⟩, nofun⟩
        · split
          · trivial
          · refine ⟨⟨r, hr, hbecomes⟩, hd.1, hd.2, hrecord.symm, ?_, ?_, ?_⟩
            · simpa using hprovider
            · simpa using hpaid
            · simpa using hamount

/-! ## The invariant -/

/-- The activation later on: its request stays. -/
structure Delivery.Continues (d d' : Delivery) : Prop where
  id : d'.id = d.id
  request : d'.toCallbackRequest = d.toCallbackRequest
  recorded : d.recorded = true → d'.recorded = true

theorem Delivery.Continues.refl (d : Delivery) : d.Continues d := ⟨rfl, rfl, fun h => h⟩

/-- A mark stands for a completed order or for a notice that has refused the payment. -/
def RowOk (w : CallbackWorld) (c : PaymentCallback) : Prop :=
  ∃ r, w.db.find c.orderNo = some r ∧ (r.status = .completed ∨
    ∃ e ∈ w.deliveries, e.recorded = true ∧ e.notice.refuses = true ∧
      e.notice.orderNo = c.orderNo ∧ e.tradeNoForIndex = c.tradeNo)

structure CallbackInv (provider : PaymentProvider) (w : CallbackWorld) : Prop where
  ids : (w.deliveries.map Delivery.id).Nodup
  fresh : ∀ d ∈ w.deliveries, d.id < w.nextId
  keys : (w.db.orders.map RechargeRecord.orderNo).Nodup
  admitted : ∀ d ∈ w.deliveries, d.Admitted provider
  stages : ∀ d ∈ w.deliveries, d.StageOk provider w.db
  rows : ∀ c ∈ w.callbacks, c.providerId = provider.id → RowOk w c
  completed : ∀ n r, w.db.find n = some r → r.status = .completed →
    ∃ d ∈ w.deliveries, d.Pays provider r

/-- What a step has to show for the invariant: where it adds something. -/
theorem CallbackInv.next (hw : CallbackInv provider w) (hdb : OrdersEvolve w.db w'.db)
    (hids : (w'.deliveries.map Delivery.id).Nodup) (hfresh : ∀ d ∈ w'.deliveries, d.id < w'.nextId)
    (hcont : ∀ d ∈ w.deliveries, ∃ d' ∈ w'.deliveries, d.Continues d')
    (hnew : ∀ d' ∈ w'.deliveries, d' ∈ w.deliveries ∨
      (d'.Admitted provider ∧ d'.StageOk provider w'.db))
    (hrows : ∀ c ∈ w'.callbacks, c ∈ w.callbacks ∨ (c.providerId = provider.id → RowOk w' c))
    (hcompleted : ∀ n r', w'.db.find n = some r' → r'.status = .completed →
      (∃ r, w.db.find n = some r ∧ r.Becomes r' ∧ r.status = .completed) ∨
        ∃ d ∈ w'.deliveries, d.Pays provider r') : CallbackInv provider w' := by
  refine ⟨hids, hfresh, hdb.keys hw.keys, fun d hd => ?_, fun d hd => ?_, fun c hc hprovider => ?_,
    fun n r' hr' hr'c => ?_⟩
  · rcases hnew d hd with hold | hd
    · exact hw.admitted d hold
    · exact hd.1
  · rcases hnew d hd with hold | hd
    · exact (hw.stages d hold).evolve hdb
    · exact hd.2
  · rcases hrows c hc with hold | hc
    · obtain ⟨r, hr, hcases⟩ := hw.rows c hold hprovider
      obtain ⟨r', hr', hbecomes⟩ := hdb.kept _ r hr
      refine ⟨r', hr', ?_⟩
      rcases hcases with hrc | ⟨e, he, hrec, href, hord, hidx⟩
      · exact .inl (hbecomes.completed hrc)
      · obtain ⟨e', he', hcontinues⟩ := hcont e he
        refine .inr ⟨e', he', hcontinues.recorded hrec, ?_⟩
        rw [hcontinues.request]
        exact ⟨href, hord, hidx⟩
    · exact hc hprovider
  · rcases hcompleted n r' hr' hr'c with ⟨r, hr, hbecomes, hrc⟩ | hpays
    · obtain ⟨d, hd, hpays⟩ := hw.completed n r hr hrc
      obtain ⟨d', hd', hcontinues⟩ := hcont d hd
      exact ⟨d', hd', hcontinues.request ▸ hpays.becomes hbecomes⟩
    · exact hpays

/-- A step that changes the orders only. -/
theorem CallbackInv.orders (hw : CallbackInv provider w)
    (h : OrdersEvolve w.db db' ∧ NoneCompleted w.db db') :
    CallbackInv provider { w with db := db' } :=
  hw.next h.1 hw.ids hw.fresh (fun d hd => ⟨d, hd, .refl d⟩) (fun _ hd => .inl hd)
    (fun _ hc => .inl hc) fun n r' hr' hc => .inl (h.2 n r' hr' hc)

/-- The activation of an id. -/
theorem delivery_eq {id : ℕ} (h : w.delivery id = some d) : d ∈ w.deliveries ∧ d.id = id :=
  Keyed.mem_of_lookup h

/-- A step of the activation `d`: it goes on as `f d`. -/
theorem CallbackInv.proceed (hw : CallbackInv provider w) (hd : d ∈ w.deliveries)
    {f : Delivery → Delivery} (hf : ∀ e : Delivery, e.Continues (f e)) {callbacks : List PaymentCallback}
    (hdb : OrdersEvolve w.db db') (hstage : (f d).StageOk provider db')
    (hrows : ∀ c ∈ callbacks, c ∈ w.callbacks ∨ (c.providerId = provider.id →
      RowOk { w with
        db := db', callbacks, deliveries := Keyed.modify Delivery.id d.id f w.deliveries } c))
    (hcompleted : ∀ n r', db'.find n = some r' → r'.status = .completed →
      (∃ r, w.db.find n = some r ∧ r.Becomes r' ∧ r.status = .completed) ∨ d.Pays provider r') :
    CallbackInv provider { w with
      db := db', callbacks, deliveries := Keyed.modify Delivery.id d.id f w.deliveries } := by
  have hself : f d ∈ Keyed.modify Delivery.id d.id f w.deliveries :=
    Keyed.mem_modify.mpr ⟨d, hd, (if_pos rfl).symm⟩
  refine hw.next hdb ?_ (fun e' he' => ?_) (fun e he => ?_) (fun e' he' => ?_) hrows
    fun n r' hr' hc => ?_
  · show ((Keyed.modify _ _ _ _).map Delivery.id).Nodup
    rw [Keyed.map_key_modify fun e => (hf e).id]
    exact hw.ids
  · obtain ⟨e, he, rfl⟩ := Keyed.mem_modify.mp he'
    split
    · exact (hf e).id ▸ hw.fresh e he
    · exact hw.fresh e he
  · refine ⟨_, Keyed.mem_modify.mpr ⟨e, he, rfl⟩, ?_⟩
    split
    · exact hf e
    · exact .refl e
  · obtain ⟨e, he, rfl⟩ := Keyed.mem_modify.mp he'
    split
    · rename_i hid
      -- with distinct ids the rewritten activation is `d`
      have hed : e = d := by
        have h1 := Keyed.lookup_of_mem hw.ids he
        have h2 := Keyed.lookup_of_mem hw.ids hd
        rw [hid] at h1
        exact Option.some.inj (h1.symm.trans h2)
      subst hed
      exact .inr ⟨(hf e).request ▸ hw.admitted e he, hstage⟩
    · exact .inl he
  · rcases hcompleted n r' hr' hc with hold | hpays
    · exact .inl hold
    · exact .inr ⟨f d, hself, (hf d).request ▸ hpays⟩

theorem setStage_continues (stage : CallbackStage) (e : Delivery) :
    e.Continues { e with stage } :=
  ⟨rfl, rfl, fun h => h⟩

theorem recorded_continues (stage : CallbackStage) (e : Delivery) :
    e.Continues { e with stage, recorded := true } :=
  ⟨rfl, rfl, fun _ => rfl⟩

theorem CallbackInv.setStage (hw : CallbackInv provider w) (hd : d ∈ w.deliveries)
    {stage : CallbackStage} (h : OrdersEvolve w.db db' ∧ NoneCompleted w.db db')
    (hstage : { d with stage }.StageOk provider db') :
    CallbackInv provider ({ w with db := db' }.setStage d.id stage) :=
  hw.proceed hd (setStage_continues stage) h.1 hstage (fun _ hc => .inl hc)
    fun n r' hr' hc => .inl (h.2 n r' hr' hc)

/-- A step of the activation that leaves the tables alone. -/
theorem CallbackInv.goOn (hw : CallbackInv provider w) (hd : d ∈ w.deliveries)
    {stage : CallbackStage} (hstage : { d with stage }.StageOk provider w.db) :
    CallbackInv provider (w.setStage d.id stage) :=
  hw.setStage hd ⟨.refl _, .refl _⟩ hstage

/-! ## One operation of an activation -/

theorem not_paid_of_refuses (h : d.notice.refuses = true) : d.notice.state ≠ .paid := by
  intro hpaid
  simp [PaymentNotice.refuses, hpaid] at h

/-- After the mark the gateway may be told that all is done. -/
theorem settled_of_mark
    (h : ∃ r, db.find d.notice.orderNo = some r ∧
      (r.status = .completed ∨ d.notice.refuses = true)) (hpaid : d.notice.state = .paid) :
    d.Settled provider db := by
  obtain ⟨r, hr, hcompleted | hrefuses⟩ := h
  · exact ⟨r, hr, fun _ => hcompleted⟩
  · exact absurd hpaid (not_paid_of_refuses hrefuses)

theorem done_stageOk {config : ProviderConfig}
    (h : d.notice.state = .paid → d.Settled provider db) :
    Delivery.StageOk provider db { d with stage := .answered (provider.done config) } := by
  simp only [PaymentProvider.done]
  split <;> exact h

/-- A duplicate may be answered with success: its mark stands for a completed
order, or for a refusal that the guard has excluded. -/
theorem settled_of_processed (hw : CallbackInv provider w) (hd : w.delivery d.id = some d)
    {record : Option RechargeRecord} (hstage : d.stage = .filter record)
    (hok : distinguishes provider w (.proceed d.id) = true)
    (h : w.isCallbackProcessed provider.id d.notice.orderNo d.tradeNoForIndex = true) :
    d.Settled provider w.db := by
  obtain ⟨c, hc, hmatch⟩ := List.any_eq_true.mp h
  simp only [Bool.and_eq_true, beq_iff_eq] at hmatch
  obtain ⟨⟨hprovider, horder⟩, hindex⟩ := hmatch
  obtain ⟨r, hr, hcases⟩ := hw.rows c hc hprovider
  rw [horder] at hr
  refine ⟨r, hr, fun hpays => ?_⟩
  rcases hcases with hcompleted | ⟨e, he, hrec, href, hord, hidx⟩
  · exact hcompleted
  · simp only [distinguishes, hd, hstage, hr, Bool.or_eq_true, Bool.not_eq_true', beq_iff_eq,
      hpays.paid, hpays.channel, hpays.amount, beq_self_eq_true] at hok
    have hunmarked : r.status ≠ .completed → w.unmarked d = true := by
      intro hne
      simpa [hne] using hok
    by_contra hne
    have hall := List.all_eq_true.mp (hunmarked hne) e he
    simp [hrec, href, hord, horder, hidx, hindex] at hall

theorem CallbackInv.mark (hw : CallbackInv provider w) (hd : d ∈ w.deliveries) {inTry : Bool}
    (hstage : d.stage = .mark inTry) : CallbackInv provider (w.advanceDelivery provider d) := by
  have hok := hw.stages d hd
  simp only [Delivery.StageOk, hstage] at hok
  obtain ⟨hfound, -⟩ := hok
  simp only [CallbackWorld.advanceDelivery, hstage]
  refine hw.proceed hd (recorded_continues _) (.refl _) ?_
    (fun c hc => ?_) fun n r' hr' hc => .inl ⟨r', hr', .refl r', hc⟩
  · exact done_stageOk (settled_of_mark hfound)
  · simp only [CallbackWorld.markCallbackProcessed] at hc
    split at hc
    · exact .inl hc
    · rcases List.mem_append.mp hc with hold | hnew
      · exact .inl hold
      · obtain rfl := List.mem_singleton.mp hnew
        obtain ⟨r, hr, hcases⟩ := hfound
        refine .inr fun _ => ⟨r, hr, hcases.imp_right fun hrefuses => ?_⟩
        exact ⟨_, Keyed.mem_modify.mpr ⟨d, hd, (if_pos rfl).symm⟩, rfl, hrefuses, rfl, rfl⟩

/-- A completion begins with a fresh copy of the order; the details that it will
write leave what is to be paid. -/
theorem commit_stageOk {c : Completion} (hpays : d.Pays provider record)
    (hknows : d.Knows db record)
    (h : startComplete db d.notice.orderNo (completeData provider d.notice record) = .ok (some c)) :
    { d with stage := .commit c }.StageOk provider db := by
  obtain ⟨hr, horder, -, -, hdata⟩ := startComplete_eq h
  obtain ⟨r, hr', hbecomes⟩ := hknows
  obtain rfl := Option.some.inj (hr.symm.trans hr')
  refine ⟨horder, ⟨c.record, hr, .refl _⟩, hpays.becomes hbecomes, ?_⟩
  rw [hdata]
  simp only [completeData]
  split
  · exact payable_merge hbecomes
  · cases hdetails : record.paymentDetails with
    | none => rfl
    | some details =>
        rw [Option.some_or, ← hdetails, hbecomes.amount]
        exact hbecomes.payable.symm

theorem complete_becomes {c : Completion} (hbecomes : c.record.Becomes r)
    (hpayable : getRechargePayableAmount c.record.amount
      (c.data.paymentDetails.or c.record.paymentDetails) = c.record.payable) :
    r.Becomes (c.complete r) := by
  refine ⟨rfl, rfl, rfl, ?_, fun _ => rfl⟩
  show getRechargePayableAmount r.amount (c.data.paymentDetails.or c.record.paymentDetails) =
    r.payable
  rw [hbecomes.amount, hpayable]
  exact hbecomes.payable.symm

theorem CallbackInv.commit (hw : CallbackInv provider w) (hd : d ∈ w.deliveries) {c : Completion}
    (hstage : d.stage = .commit c) (h : commitComplete w.db c = .ok db') :
    CallbackInv provider ({ w with db := db' }.setStage d.id (.mark true)) := by
  have hok := hw.stages d hd
  simp only [Delivery.StageOk, hstage] at hok
  obtain ⟨horder, ⟨r₀, hr₀, hbecomes⟩, hpays, hpayable⟩ := hok
  obtain ⟨r, hr, ⟨hstatus, rfl⟩ | ⟨hcompleted, rfl⟩⟩ := commitComplete_eq h
  · rw [horder] at hr
    obtain rfl := Option.some.inj (hr.symm.trans hr₀)
    have hkey : ∀ r, (c.complete r).orderNo = r.orderNo := fun _ => rfl
    have hnew := complete_becomes hbecomes hpayable
    have hfind : (w.db.rewrite d.notice.orderNo c.complete).find d.notice.orderNo =
        some (c.complete r) := find_rewrite hkey hr
    rw [horder]
    have hevolve : OrdersEvolve w.db ((w.db.rewrite d.notice.orderNo c.complete).credit c) := by
      have h := ordersEvolve_rewrite hkey hr hnew
      exact ⟨h.keys, h.kept⟩
    refine hw.proceed hd (setStage_continues _) hevolve
      ⟨⟨c.complete r, hfind, .inl rfl⟩, fun _ => hpays.paid⟩ (fun _ hc => .inl hc)
      fun n r' hr' hc => ?_
    by_cases hn : n = d.notice.orderNo
    · subst hn
      obtain rfl := Option.some.inj (hfind.symm.trans hr')
      exact .inr (hpays.becomes (hbecomes.trans hnew))
    · exact .inl ⟨r', (find_rewrite_of_ne hkey hn).symm.trans hr', .refl r', hc⟩
  · rw [horder] at hr
    exact hw.goOn hd ⟨⟨r, hr, .inl hcompleted⟩, fun _ => hpays.paid⟩

theorem CallbackInv.advance (hw : CallbackInv provider w) (hid : w.delivery d.id = some d)
    (hok : distinguishes provider w (.proceed d.id) = true) :
    CallbackInv provider (w.advanceDelivery provider d) := by
  have hd := (delivery_eq hid).1
  have hstageOk := hw.stages d hd
  have hadmitted := hw.admitted d hd
  cases hstage : d.stage with
  | filter record =>
      simp only [CallbackWorld.advanceDelivery, hstage]
      split
      · rename_i hprocessed
        exact hw.goOn hd
          (done_stageOk fun _ => settled_of_processed hw hid hstage hok hprocessed)
      · cases record with
        | none => exact hw.goOn hd trivial
        | some record =>
            simp only [Delivery.StageOk, hstage] at hstageOk
            have horder : record.orderNo = d.notice.orderNo := by
              obtain ⟨r, hr, hbecomes⟩ := hstageOk
              exact hbecomes.orderNo.symm.trans (Keyed.mem_of_lookup hr).2
            exact hw.goOn hd (decideCallback_ok hadmitted hstageOk horder)
  | load =>
      simp only [CallbackWorld.advanceDelivery, hstage]
      cases hr : w.db.find d.notice.orderNo with
      | none => exact hw.goOn hd trivial
      | some r =>
          exact hw.goOn hd
            (decideCallback_ok hadmitted ⟨r, hr, .refl r⟩ (Keyed.mem_of_lookup hr).2)
  | metadata record =>
      simp only [Delivery.StageOk, hstage] at hstageOk
      obtain ⟨hpending, r, hr, hbecomes⟩ := hstageOk
      simp only [CallbackWorld.advanceDelivery, hstage]
      split
      · rename_i db' hdb'
        refine hw.setStage hd (metadata_evolve (fun s hs => ?_) hdb') ?_
        · obtain rfl := Option.some.inj (hr.symm.trans hs)
          exact hbecomes
        · exact done_stageOk fun hpaid => absurd (hpaid.symm.trans hpending) (by simp)
      · exact hw.goOn hd trivial
  | close record =>
      simp only [Delivery.StageOk, hstage] at hstageOk
      obtain ⟨hrefuses, r, hr, hbecomes⟩ := hstageOk
      simp only [CallbackWorld.advanceDelivery, hstage]
      split
      · rename_i db' hdb'
        have hevolve := close_evolve (fun s hs => by
          obtain rfl := Option.some.inj (hr.symm.trans hs)
          exact hbecomes) hdb'
        obtain ⟨r', hr', -⟩ := hevolve.1.kept _ r hr
        exact hw.setStage hd hevolve ⟨⟨r', hr', .inr hrefuses⟩, nofun⟩
      · exact hw.goOn hd trivial
  | begin record =>
      simp only [Delivery.StageOk, hstage] at hstageOk
      obtain ⟨hknows, hpays⟩ := hstageOk
      simp only [CallbackWorld.advanceDelivery, hstage]
      split
      · rename_i c hstart
        exact hw.goOn hd (commit_stageOk hpays hknows hstart)
      · rename_i hstart
        obtain ⟨r, hr, hcompleted⟩ := completed_of_startComplete hstart
        exact hw.goOn hd ⟨⟨r, hr, .inl hcompleted⟩, fun _ => hpays.paid⟩
      · exact hw.goOn hd hpays.paid
  | commit c =>
      simp only [Delivery.StageOk, hstage] at hstageOk
      simp only [CallbackWorld.advanceDelivery, hstage]
      split
      · rename_i db' hdb'
        exact hw.commit hd hstage hdb'
      · exact hw.goOn hd hstageOk.2.2.1.paid
  | recheck =>
      simp only [CallbackWorld.advanceDelivery, hstage]
      split
      · rename_i r hr
        split
        · rename_i hcompleted
          exact hw.goOn hd ⟨⟨r, hr, .inl hcompleted⟩, nofun⟩
        · exact hw.goOn hd trivial
      · exact hw.goOn hd trivial
  | mark inTry => exact hw.mark hd hstage
  | answered reply =>
      simp only [CallbackWorld.advanceDelivery, hstage]
      exact hw

theorem CallbackInv.throw (hw : CallbackInv provider w) (hd : d ∈ w.deliveries) :
    CallbackInv provider (w.setStage d.id (d.thrown provider)) := by
  have hstageOk := hw.stages d hd
  have hadmitted := hw.admitted d hd
  refine hw.goOn hd ?_
  cases hstage : d.stage with
  | filter record =>
      cases record with
      | none =>
          simp only [Delivery.thrown, hstage]
          trivial
      | some record =>
          simp only [Delivery.StageOk, hstage] at hstageOk
          have horder : record.orderNo = d.notice.orderNo := by
            obtain ⟨r, hr, hbecomes⟩ := hstageOk
            exact hbecomes.orderNo.symm.trans (Keyed.mem_of_lookup hr).2
          simp only [Delivery.thrown, hstage]
          exact decideCallback_ok hadmitted hstageOk horder
  | begin record =>
      simp only [Delivery.StageOk, hstage] at hstageOk
      simp only [Delivery.thrown, hstage]
      exact hstageOk.2.paid
  | commit c =>
      simp only [Delivery.StageOk, hstage] at hstageOk
      simp only [Delivery.thrown, hstage]
      exact hstageOk.2.2.1.paid
  | mark inTry =>
      simp only [Delivery.StageOk, hstage] at hstageOk
      cases inTry with
      | true =>
          simp only [Delivery.thrown, hstage]
          exact hstageOk.2 rfl
      | false =>
          simp only [Delivery.thrown, hstage]
          exact done_stageOk (settled_of_mark hstageOk.1)
  | load | metadata record | close record | recheck =>
      simp only [Delivery.thrown, hstage]
      trivial
  | answered reply =>
      simp only [Delivery.StageOk, hstage] at hstageOk
      simp only [Delivery.thrown, hstage, Delivery.StageOk]
      exact hstageOk

theorem CallbackInv.receive (hw : CallbackInv provider w) {q : CallbackRequest}
    {record : Option RechargeRecord} (hq : q.Admitted provider)
    (hrecord : ∀ r, record = some r → w.db.find q.notice.orderNo = some r) :
    CallbackInv provider { w with
      nextId := w.nextId + 1
      deliveries := w.deliveries ++
        [{ toCallbackRequest := q, id := w.nextId, stage := .filter record }] } := by
  refine hw.next (.refl _) ?_ (fun d hd => ?_) (fun d hd => ?_) (fun d hd => ?_)
    (fun _ hc => .inl hc) fun n r' hr' hc => .inl ⟨r', hr', .refl r', hc⟩
  · refine Keyed.nodup_append_singleton hw.ids fun d hd => ?_
    exact (hw.fresh d hd).ne
  · exact Keyed.below_concat hw.fresh (Nat.le_succ _) (Nat.lt_succ_self _) d hd
  · exact ⟨d, List.mem_append_left _ hd, .refl d⟩
  · rcases List.mem_append.mp hd with hold | hnew
    · exact .inl hold
    · obtain rfl := List.mem_singleton.mp hnew
      refine .inr ⟨hq, ?_⟩
      cases record with
      | none => trivial
      | some r => exact ⟨r, hrecord r rfl, .refl r⟩

theorem CallbackInv.step {event : CallbackEvent} (hw : CallbackInv provider w)
    (hok : distinguishes provider w event = true) (hs : callbackStep provider w event = some w') :
    CallbackInv provider w' := by
  cases event with
  | advance now =>
      simp only [callbackStep] at hs
      split at hs
      · obtain rfl := Option.some.inj hs
        exact ⟨hw.ids, hw.fresh, hw.keys, hw.admitted, hw.stages, hw.rows, hw.completed⟩
      · cases hs
  | createOrder input =>
      obtain rfl := Option.some.inj hs
      exact hw.orders (after_evolve fun _ => createRechargeOrder_evolve)
  | cancelOrder n =>
      obtain rfl := Option.some.inj hs
      exact hw.orders (after_evolve fun _ => cancelRecharge_evolve)
  | expireOrders orderNos =>
      obtain rfl := Option.some.inj hs
      exact hw.orders (expire_evolve _)
  | cleanExpired =>
      obtain rfl := Option.some.inj hs
      exact hw.orders (expire_evolve _)
  | cleanOldCallbacks =>
      obtain rfl := Option.some.inj hs
      exact ⟨hw.ids, hw.fresh, hw.keys, hw.admitted, hw.stages,
        fun c hc => hw.rows c (List.mem_of_mem_filter hc), hw.completed⟩
  | receive ipAllowed data =>
      simp only [callbackStep] at hs
      split at hs
      · obtain rfl := Option.some.inj hs
        exact hw
      · rename_i notice hadmit
        obtain rfl := Option.some.inj hs
        refine hw.receive (q := ⟨data, w.now, _, notice, _⟩) (admitCallback_ok hadmit) fun r hr => ?_
        obtain ⟨hfound, horder⟩ := Option.filter_eq_some_iff.mp hr
        obtain ⟨n, -, hn⟩ := Option.bind_eq_some_iff.mp hfound
        have hkey : r.orderNo = n := (Keyed.mem_of_lookup hn).2
        rw [beq_iff_eq] at horder
        exact (hkey.symm.trans horder) ▸ hn
  | proceed id =>
      obtain ⟨d, hd, rfl⟩ := Option.map_eq_some_iff.mp hs
      obtain rfl := (delivery_eq hd).2
      exact hw.advance hd hok
  | throw id =>
      obtain ⟨d, hd, rfl⟩ := Option.map_eq_some_iff.mp hs
      exact hw.throw (delivery_eq hd).1

/-- Along every run in which no refusing notice stands in the way of a payment:
completed orders were paid for, and a payment is answered with success only if
its order is completed. -/
theorem payments_kept {now : Time} {balances : ℕ → Units}
    (h : Machine.Reach (callbackStep provider) (fun w e => distinguishes provider w e = true)
      { now, db := { balances } } w) : w.PaymentsKept provider := by
  have hw : CallbackInv provider w := by
    refine h.invariant (P := CallbackInv provider) ?_ fun hw hok hs => hw.step hok hs
    exact ⟨List.nodup_nil, by simp, List.nodup_nil, by simp, by simp, by simp,
      by simp [RechargeDb.find, Keyed.lookup]⟩
  refine ⟨hw.completed, fun d hd r hr hpays body hbody => ?_⟩
  have hstage := hw.stages d hd
  simp only [Delivery.StageOk, hbody] at hstage
  obtain ⟨r', hr', hcompleted⟩ := hstage hpays.paid
  obtain rfl := Option.some.inj (hr.symm.trans hr')
  exact hcompleted hpays

end Activations

instance (provider : PaymentProvider) (d : CallbackRequest) (r : RechargeRecord) :
    Decidable (d.Pays provider r) :=
  decidable_of_iff
    ((provider.config d.preliminary).verifies d.receivedAt d.data = true ∧
      noticeOf provider.type d.data = .ok d.notice ∧ d.notice.orderNo = r.orderNo ∧
      r.providerId = provider.id ∧ d.notice.state = .paid ∧
      amountAccepted provider.type (d.notice.amount.getD 0) r.payable = true)
    ⟨fun ⟨h₁, h₂, h₃, h₄, h₅, h₆⟩ => ⟨h₁, h₂, h₃, h₄, h₅, h₆⟩,
      fun h => ⟨h.signature, h.extracted, h.order, h.channel, h.paid, h.amount⟩⟩

/-- A crypto gateway whose signature is a fixed text. -/
def sampleGateway : PaymentProvider :=
  { id := 1
    type := .heleket
    config := fun _ => { verifies := fun _ data => data.get "sign" == some (.string "5d41402a") } }

/-- A notice of the gateway about order `R1`. -/
def sampleNotice (uuid status : String) : CallbackData :=
  [("order_id", .string "R1"), ("uuid", .string uuid), ("status", .string status),
    ("amount", .string "10.00"), ("sign", .string "5d41402a")]

def sampleStart : CallbackWorld := { now := 0, db := { balances := fun _ => 0 } }

/-- The payment comes under another trade number than the cancellation, and twice. -/
def latePayment : List CallbackEvent :=
  [.createOrder ⟨"R1", 7, 1, 10, none, none, none⟩, .receive true (sampleNotice "u1" "cancel"),
    .proceed 0, .proceed 0, .proceed 0, .receive true (sampleNotice "u2" "paid"),
    .receive true (sampleNotice "u2" "paid"), .proceed 1, .proceed 1, .proceed 1, .proceed 1,
    .proceed 2]

theorem latePayment_paid :
    (Machine.exec (Machine.guarded (callbackStep sampleGateway) (distinguishes sampleGateway))
        sampleStart latePayment).map
        (fun w => (w.db.balances 7, w.deliveries.map fun d => d.stage)) =
      some (1000000000, [.answered (.success "SUCCESS OK"), .answered (.success "SUCCESS OK"),
        .answered (.success "SUCCESS OK")]) := by
  decide +kernel

theorem payments_kept_late :
    ∃ w, Machine.Reach (callbackStep sampleGateway)
        (fun w e => distinguishes sampleGateway w e = true) sampleStart w ∧
      w.db.balances 7 = 1000000000 ∧ w.PaymentsKept sampleGateway := by
  obtain ⟨w, hexec, hw⟩ := Option.map_eq_some_iff.mp latePayment_paid
  have hreach := Machine.reach_of_exec_guarded hexec
  exact ⟨w, hreach, (Prod.mk.inj hw).1, payments_kept hreach⟩

/-- The payment comes under the trade number of the cancellation. -/
def swallowedPayment : List CallbackEvent :=
  [.createOrder ⟨"R1", 7, 1, 10, none, none, none⟩, .receive true (sampleNotice "u1" "cancel"),
    .proceed 0, .proceed 0, .proceed 0, .receive true (sampleNotice "u1" "paid"), .proceed 1]

/-- Some payment was answered with success and has not completed its order. -/
def CallbackWorld.swallows (provider : PaymentProvider) (w : CallbackWorld) : Bool :=
  w.deliveries.any fun d =>
    (w.db.find d.notice.orderNo).any fun r =>
      decide (d.Pays provider r) && d.stage == .answered (.success "SUCCESS OK") &&
        r.status != .completed

theorem CallbackWorld.not_kept_of_swallows {provider : PaymentProvider} {w : CallbackWorld}
    (h : w.swallows provider = true) : ¬ w.PaymentsKept provider := by
  intro hkept
  obtain ⟨d, hd, hany⟩ := List.any_eq_true.mp h
  cases hr : w.db.find d.notice.orderNo with
  | none => simp [hr] at hany
  | some r =>
      simp only [hr, Option.any_some, Bool.and_eq_true, decide_eq_true_eq, beq_iff_eq,
        bne_iff_ne, ne_eq] at hany
      exact hany.2 (hkept.answered d hd r hr hany.1.1 _ hany.1.2)

theorem swallowedPayment_swallows :
    (Machine.exec (callbackStep sampleGateway) sampleStart swallowedPayment).map
      (CallbackWorld.swallows sampleGateway) = some true := by
  decide +kernel

theorem payment_swallowed :
    ∃ w, Machine.Reach (callbackStep sampleGateway) Machine.free sampleStart w ∧
      ¬ w.PaymentsKept sampleGateway := by
  obtain ⟨w, hexec, hw⟩ := Option.map_eq_some_iff.mp swallowedPayment_swallows
  exact ⟨w, Machine.reach_of_exec hexec, CallbackWorld.not_kept_of_swallows hw⟩

end Incudal
