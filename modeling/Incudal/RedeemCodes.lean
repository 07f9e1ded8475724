/-
# `RedeemCodes` — a code is counted as often as it is used

A redemption locks the code, looks whether the user has used it or its batch,
raises the counter while it is below the bound, and inserts the usage; a
release, which compensates a redemption that could not be delivered, deletes
the usage and lowers the counter.  The transactions run at the level read
committed, statement by statement.

Until it commits, a transaction has changed nothing that others see.  What it
has written it holds the row locks of: the counter of its code, the usage it
deletes, the key of user and batch it inserts.  A statement that needs a row
another holds waits, and sees the row as it was committed then; so a written
value is what the commit makes of the committed one (`codes_exact`).
-/
import Incudal.Basic
import Incudal.Lib.Exclusive
import Incudal.Lib.Keyed
import Incudal.Lib.Machine
import Mathlib.Data.List.Nodup

namespace Incudal

/-! ## Rows -/

/-- The columns of `redeem_codes` that a redemption reads. -/
structure RedeemCode where
  maxUses : ℕ
  usedCount : ℕ := 0
deriving DecidableEq, Repr

structure RedeemCodeUsage where
  id : ℕ
  redeemCodeId : ℕ
  userId : ℕ
  instanceId : ℕ
  batchId : Option String
deriving DecidableEq, Repr

/-! ## Calls -/

/-- Where a call is.  From `locked` to `inserted` a redemption holds the advisory lock of its
code; `deleted` and `decremented` are those of a release. -/
inductive CodeStage
  | tryLock (attempt : ℕ)
  | locked | unusedByUser | checked | counted | inserted
  | findUsage
  | found (usageId : ℕ)
  | deleted (usageId : ℕ)
  /-- the counter has been lowered, unless it was not above zero -/
  | decremented (usageId : ℕ) (lowered : Bool)
  | done (outcome : Except String Unit)

/-- A call of `useSystemRedeemCode` or of `releaseSystemRedeemCode`. -/
structure RedeemCall where
  redeemCodeId : ℕ
  userId : ℕ
  instanceId : ℕ
  batchId : Option String := none
  stage : CodeStage

namespace RedeemCall

variable (call : RedeemCall)

/-- It holds the advisory lock of a code. -/
def holdsLock (codeId : ℕ) : Bool :=
  call.redeemCodeId == codeId &&
    match call.stage with
    | .locked | .unusedByUser | .checked | .counted | .inserted => true
    | _ => false

/-- It has written the row of a code and not yet committed. -/
def holdsCode (codeId : ℕ) : Bool :=
  call.redeemCodeId == codeId &&
    match call.stage with
    | .counted | .inserted | .decremented _ true => true
    | _ => false

/-- It has deleted a usage and not yet committed. -/
def holdsUsage (usageId : ℕ) : Bool :=
  match call.stage with
  | .deleted id | .decremented id _ => id == usageId
  | _ => false

/-- It has inserted a usage under a user and a batch and not yet committed. -/
def holdsBatch (userId : ℕ) (batchId : String) : Bool :=
  call.userId == userId && call.batchId == some batchId &&
    match call.stage with
    | .inserted => true
    | _ => false

/-- The call at another stage. -/
def at_ (stage : CodeStage) : RedeemCall := { call with stage }

/-- The call after an error, which rolls its transaction back. -/
def fail (message : String) : RedeemCall := call.at_ (.done (.error message))

end RedeemCall

/-! ## The tables -/

structure RedeemWorld where
  codes : ℕ → Option RedeemCode
  usages : List RedeemCodeUsage := []
  calls : List RedeemCall := []
  nextId : ℕ := 1
  /-- the usages that redemptions have committed, and those that releases have deleted -/
  redeemed : List ℕ := []
  released : List ℕ := []

/-- `LOCK_RETRY_LIMIT`. -/
def lockRetryLimit : ℕ := 10

namespace RedeemWorld

variable (w : RedeemWorld)

def setCall (k : ℕ) (call : RedeemCall) : RedeemWorld := { w with calls := w.calls.set k call }

/-- How often a code stands in the usages. -/
def usageCount (codeId : ℕ) : ℕ := w.usages.countP fun u => u.redeemCodeId == codeId

/-- The commit of a redemption. -/
def commitRedemption (call : RedeemCall) : RedeemWorld :=
  { w with
      codes := Function.update w.codes call.redeemCodeId
        ((w.codes call.redeemCodeId).map fun c => { c with usedCount := c.usedCount + 1 })
      usages := w.usages ++
        [{ id := w.nextId, redeemCodeId := call.redeemCodeId, userId := call.userId
           instanceId := call.instanceId, batchId := call.batchId }]
      nextId := w.nextId + 1
      redeemed := w.redeemed ++ [w.nextId] }

/-- The commit of a release. -/
def commitRelease (call : RedeemCall) (usageId : ℕ) (lowered : Bool) : RedeemWorld :=
  { w with
      codes :=
        if lowered then
          Function.update w.codes call.redeemCodeId
            ((w.codes call.redeemCodeId).map fun c => { c with usedCount := c.usedCount - 1 })
        else w.codes
      usages := w.usages.filter fun u => u.id != usageId
      released := w.released ++ [usageId] }

/-- The next statement of a call; nothing while it waits for a row. -/
def statement (k : ℕ) (call : RedeemCall) : Option RedeemWorld :=
  match call.stage with
  | .tryLock attempt =>
      if lockRetryLimit ≤ attempt then some (w.setCall k (call.fail "REDEEM_CODE_BUSY"))
      else if w.calls.any (·.holdsLock call.redeemCodeId) then
        some (w.setCall k (call.at_ (.tryLock (attempt + 1))))
      else some (w.setCall k (call.at_ .locked))
  | .locked =>
      if w.usages.any fun u => u.redeemCodeId == call.redeemCodeId && u.userId == call.userId then
        some (w.setCall k (call.fail "REDEEM_CODE_ALREADY_USED_BY_USER"))
      else some (w.setCall k (call.at_ .unusedByUser))
  | .unusedByUser =>
      if call.batchId.any (· ≠ "") &&
          w.usages.any fun u => u.userId == call.userId && u.batchId == call.batchId then
        some (w.setCall k (call.fail "REDEEM_CODE_BATCH_LIMIT"))
      else some (w.setCall k (call.at_ .checked))
  | .checked =>
      if (w.codes call.redeemCodeId).any fun c => c.usedCount < c.maxUses then
        if w.calls.any (·.holdsCode call.redeemCodeId) then none
        else some (w.setCall k (call.at_ .counted))
      else some (w.setCall k (call.fail "REDEEM_CODE_EXHAUSTED"))
  | .counted =>
      match call.batchId with
      | none => some (w.setCall k (call.at_ .inserted))
      | some batchId =>
          -- the unique key of user and batch waits for whoever deletes or inserts it
          match w.usages.find? fun u => u.userId == call.userId && u.batchId == some batchId with
          | some usage =>
              if w.calls.any (·.holdsUsage usage.id) then none
              else some (w.setCall k (call.fail "REDEEM_CODE_BATCH_LIMIT"))
          | none =>
              if w.calls.any (·.holdsBatch call.userId batchId) then none
              else some (w.setCall k (call.at_ .inserted))
  | .inserted => some ((w.commitRedemption call).setCall k (call.at_ (.done (.ok ()))))
  | .findUsage =>
      match w.usages.find? fun u => u.redeemCodeId == call.redeemCodeId && u.userId == call.userId
          && u.instanceId == call.instanceId with
      | none => some (w.setCall k (call.at_ (.done (.ok ()))))
      | some usage => some (w.setCall k (call.at_ (.found usage.id)))
  | .found usageId =>
      if w.usages.any fun u => u.id == usageId then
        if w.calls.any (·.holdsUsage usageId) then none
        else some (w.setCall k (call.at_ (.deleted usageId)))
      else some (w.setCall k (call.fail "Record to delete does not exist."))
  | .deleted usageId =>
      if (w.codes call.redeemCodeId).any fun c => 0 < c.usedCount then
        if w.calls.any (·.holdsCode call.redeemCodeId) then none
        else some (w.setCall k (call.at_ (.decremented usageId true)))
      else some (w.setCall k (call.at_ (.decremented usageId false)))
  | .decremented usageId lowered =>
      some ((w.commitRelease call usageId lowered).setCall k (call.at_ (.done (.ok ()))))
  | .done _ => none

end RedeemWorld

/-- What happens to the codes. -/
inductive RedeemEvent
  | useSystemRedeemCode (redeemCodeId userId instanceId : ℕ) (batchId : Option String)
  | releaseSystemRedeemCode (redeemCodeId userId instanceId : ℕ)
  | statement (k : ℕ)
  /-- a call that has not committed ends anywhere -/
  | crash (k : ℕ)
deriving DecidableEq, Repr

def redeemStep (w : RedeemWorld) : RedeemEvent → Option RedeemWorld
  | .useSystemRedeemCode redeemCodeId userId instanceId batchId =>
      some { w with
        calls := w.calls ++ [{ redeemCodeId, userId, instanceId, batchId, stage := .tryLock 0 }] }
  | .releaseSystemRedeemCode redeemCodeId userId instanceId =>
      some { w with
        calls := w.calls ++ [{ redeemCodeId, userId, instanceId, stage := .findUsage }] }
  | .statement k =>
      match w.calls[k]? with
      | none => none
      | some call => w.statement k call
  | .crash k =>
      match w.calls[k]? with
      | none => none
      | some call =>
          match call.stage with
          | .done _ => none
          | _ => some (w.setCall k (call.fail "connection lost"))

/-! ## The property -/

/-- The counters count the usages and keep their bounds, no user has a code or a batch twice,
and every usage that was ever redeemed is either there or has been released, once. -/
structure CodesExact (w : RedeemWorld) : Prop where
  counted : ∀ id code, w.codes id = some code →
    code.usedCount = w.usageCount id ∧ code.usedCount ≤ code.maxUses
  oncePerCode : (w.usages.map fun u => (u.redeemCodeId, u.userId)).Nodup
  oncePerBatch : (w.usages.filterMap fun u => u.batchId.map fun b => (u.userId, b)).Nodup
  undone : (w.usages.map RedeemCodeUsage.id ++ w.released).Perm w.redeemed
  once : w.redeemed.Nodup

/-- The code is there and not exhausted. -/
def RedeemWorld.HasRoom (w : RedeemWorld) (codeId : ℕ) : Prop :=
  ∃ code, w.codes codeId = some code ∧ code.usedCount < code.maxUses

/-- What a call has found out and still relies on. -/
def CallInv (w : RedeemWorld) (call : RedeemCall) : Prop :=
  let unused := ∀ u ∈ w.usages, u.redeemCodeId = call.redeemCodeId → u.userId ≠ call.userId
  let room := w.HasRoom call.redeemCodeId
  let own (id : ℕ) := id < w.nextId ∧ ∀ u ∈ w.usages, u.id = id →
    u.redeemCodeId = call.redeemCodeId
  match call.stage with
  | .unusedByUser | .checked => unused
  | .counted => unused ∧ room
  | .inserted => unused ∧ room ∧ ∀ batchId, call.batchId = some batchId →
      ∀ u ∈ w.usages, u.userId = call.userId → u.batchId ≠ some batchId
  | .found id => own id
  | .deleted id => own id ∧ ∃ u ∈ w.usages, u.id = id
  | .decremented id lowered => own id ∧ (∃ u ∈ w.usages, u.id = id) ∧ lowered = true
  | _ => True

/-- What else holds between the statements: rows are held by one call each, and a call that
has checked something or holds a row still finds it so. -/
structure RedeemInv (w : RedeemWorld) : Prop extends CodesExact w where
  fresh : ∀ id ∈ w.redeemed, id < w.nextId
  owned : ∀ u ∈ w.usages, (w.codes u.redeemCodeId).isSome
  lock : ∀ id, Exclusive (fun call : RedeemCall => call.holdsLock id = true) w.calls
  code : ∀ id, Exclusive (fun call : RedeemCall => call.holdsCode id = true) w.calls
  usage : ∀ id, Exclusive (fun call : RedeemCall => call.holdsUsage id = true) w.calls
  batch : ∀ userId batchId,
    Exclusive (fun call : RedeemCall => call.holdsBatch userId batchId = true) w.calls
  calls : ∀ call ∈ w.calls, CallInv w call

/-! ## Statements that do not commit -/

section Moves

variable {w w' : RedeemWorld} {k : ℕ} {call call' : RedeemCall}

/-- A call that moves on keeps the invariant if what it holds now it held before, or nobody
did, and it relies on what is so. -/
theorem RedeemInv.move (h : RedeemInv w) (hk : w.calls[k]? = some call)
    (hlock : ∀ id, call'.holdsLock id = true →
      call.holdsLock id = true ∨ ∀ c ∈ w.calls, ¬c.holdsLock id = true)
    (hcode : ∀ id, call'.holdsCode id = true →
      call.holdsCode id = true ∨ ∀ c ∈ w.calls, ¬c.holdsCode id = true)
    (husage : ∀ id, call'.holdsUsage id = true →
      call.holdsUsage id = true ∨ ∀ c ∈ w.calls, ¬c.holdsUsage id = true)
    (hbatch : ∀ userId batchId, call'.holdsBatch userId batchId = true →
      call.holdsBatch userId batchId = true ∨ ∀ c ∈ w.calls, ¬c.holdsBatch userId batchId = true)
    (hcall : CallInv w call') : RedeemInv (w.setCall k call') where
  counted := h.counted
  oncePerCode := h.oncePerCode
  oncePerBatch := h.oncePerBatch
  undone := h.undone
  once := h.once
  fresh := h.fresh
  owned := h.owned
  lock := fun id => (h.lock id).set hk (hlock id)
  code := fun id => (h.code id).set hk (hcode id)
  usage := fun id => (h.usage id).set hk (husage id)
  batch := fun userId batchId => (h.batch userId batchId).set hk (hbatch userId batchId)
  calls := by
    intro c hc
    rcases List.mem_or_eq_of_mem_set hc with hc | rfl
    · exact h.calls c hc
    · exact hcall

/-- A call that is over holds nothing. -/
theorem RedeemInv.finish (h : RedeemInv w) (hk : w.calls[k]? = some call)
    (outcome : Except String Unit) : RedeemInv (w.setCall k (call.at_ (.done outcome))) :=
  h.move hk (by simp [RedeemCall.holdsLock, RedeemCall.at_])
    (by simp [RedeemCall.holdsCode, RedeemCall.at_])
    (by simp [RedeemCall.holdsUsage, RedeemCall.at_])
    (by simp [RedeemCall.holdsBatch, RedeemCall.at_]) trivial

theorem RedeemInv.nodup_ids (h : RedeemInv w) : (w.usages.map RedeemCodeUsage.id).Nodup :=
  (List.nodup_append.mp (h.undone.nodup_iff.mpr h.once)).1

theorem RedeemInv.eq_of_id (h : RedeemInv w) {u v : RedeemCodeUsage} (hu : u ∈ w.usages)
    (hv : v ∈ w.usages) (hid : u.id = v.id) : u = v :=
  List.inj_on_of_nodup_map h.nodup_ids hu hv hid

theorem RedeemInv.fresh_usage (h : RedeemInv w) {u : RedeemCodeUsage} (hu : u ∈ w.usages) :
    u.id < w.nextId :=
  h.fresh u.id (h.undone.subset (List.mem_append_left _ (List.mem_map_of_mem hu)))

/-- Nobody in the list. -/
theorem none_of_not_any {p : RedeemCall → Bool} {calls : List RedeemCall}
    (h : ¬calls.any p = true) : ∀ c ∈ calls, ¬p c = true :=
  fun c hc hp => h (List.any_eq_true.mpr ⟨c, hc, hp⟩)

theorem RedeemInv.redeem_move (h : RedeemInv w) (hk : w.calls[k]? = some call)
    (hstep : w.statement k call = some w') (hstage : ∀ id, call.stage ≠ .decremented id true)
    (hstage' : ∀ id, call.stage ≠ .decremented id false) (hinserted : call.stage ≠ .inserted) :
    RedeemInv w' := by
  have hinv := h.calls call (List.mem_of_getElem? hk)
  unfold RedeemWorld.statement at hstep
  cases hs : call.stage with
  | tryLock attempt =>
    simp only [hs] at hstep
    split_ifs at hstep with hlimit hheld
    · obtain rfl := Option.some.inj hstep
      exact h.finish hk _
    · obtain rfl := Option.some.inj hstep
      refine h.move hk ?_ ?_ ?_ ?_ trivial <;>
        simp [RedeemCall.holdsLock, RedeemCall.holdsCode, RedeemCall.holdsUsage,
          RedeemCall.holdsBatch, RedeemCall.at_]
    · obtain rfl := Option.some.inj hstep
      refine h.move hk (fun id hid => .inr ?_) ?_ ?_ ?_ trivial
      · have hcode : call.redeemCodeId = id := by
          simpa [RedeemCall.holdsLock, RedeemCall.at_] using hid
        exact hcode ▸ none_of_not_any hheld
      all_goals simp [RedeemCall.holdsCode, RedeemCall.holdsUsage, RedeemCall.holdsBatch,
        RedeemCall.at_]
  | locked =>
    simp only [hs] at hstep
    split_ifs at hstep with hused
    · obtain rfl := Option.some.inj hstep
      exact h.finish hk _
    · obtain rfl := Option.some.inj hstep
      refine h.move hk (fun id hid => .inl ?_) ?_ ?_ ?_ fun u hu hcode huser => hused ?_
      · simpa [RedeemCall.holdsLock, RedeemCall.at_, hs] using hid
      · simp [RedeemCall.holdsCode, RedeemCall.at_]
      · simp [RedeemCall.holdsUsage, RedeemCall.at_]
      · simp [RedeemCall.holdsBatch, RedeemCall.at_]
      · exact List.any_eq_true.mpr ⟨u, hu, by simp [hcode, huser, RedeemCall.at_]⟩
  | unusedByUser =>
    simp only [hs] at hstep
    simp only [CallInv, hs] at hinv
    split_ifs at hstep
    · obtain rfl := Option.some.inj hstep
      exact h.finish hk _
    · obtain rfl := Option.some.inj hstep
      refine h.move hk (fun id hid => .inl ?_) ?_ ?_ ?_ hinv
      · simpa [RedeemCall.holdsLock, RedeemCall.at_, hs] using hid
      · simp [RedeemCall.holdsCode, RedeemCall.at_]
      · simp [RedeemCall.holdsUsage, RedeemCall.at_]
      · simp [RedeemCall.holdsBatch, RedeemCall.at_]
  | checked =>
    simp only [hs] at hstep
    simp only [CallInv, hs] at hinv
    split_ifs at hstep with hroom hheld
    · obtain rfl := Option.some.inj hstep
      refine h.move hk (fun id hid => .inl ?_) (fun id hid => .inr ?_) ?_ ?_ ⟨hinv, ?_⟩
      · simpa [RedeemCall.holdsLock, RedeemCall.at_, hs] using hid
      · have hcode : call.redeemCodeId = id := by
          simpa [RedeemCall.holdsCode, RedeemCall.at_] using hid
        exact hcode ▸ none_of_not_any hheld
      · simp [RedeemCall.holdsUsage, RedeemCall.at_]
      · simp [RedeemCall.holdsBatch, RedeemCall.at_]
      · cases hcode : w.codes call.redeemCodeId with
        | none => simp [hcode] at hroom
        | some code => exact ⟨code, hcode, by simpa [hcode] using hroom⟩
    · obtain rfl := Option.some.inj hstep
      exact h.finish hk _
  | counted =>
    simp only [hs] at hstep
    simp only [CallInv, hs] at hinv
    split at hstep
    · rename_i hnone
      obtain rfl := Option.some.inj hstep
      refine h.move hk (fun id hid => .inl ?_) (fun id hid => .inl ?_) ?_ ?_
        ⟨hinv.1, hinv.2, fun batchId hbatch => ?_⟩
      · simpa [RedeemCall.holdsLock, RedeemCall.at_, hs] using hid
      · simpa [RedeemCall.holdsCode, RedeemCall.at_, hs] using hid
      · simp [RedeemCall.holdsUsage, RedeemCall.at_]
      · simp [RedeemCall.holdsBatch, RedeemCall.at_, hnone]
      · exact absurd (hnone.symm.trans hbatch) (by simp)
    · rename_i batchId hsome
      split at hstep <;> rename_i hfind <;> split_ifs at hstep with hheld
      · obtain rfl := Option.some.inj hstep
        exact h.finish hk _
      · obtain rfl := Option.some.inj hstep
        refine h.move hk (fun id hid => .inl ?_) (fun id hid => .inl ?_) ?_
          (fun userId other hid => .inr ?_) ⟨hinv.1, hinv.2, fun other hother u hu huser hbatch => ?_⟩
        · simpa [RedeemCall.holdsLock, RedeemCall.at_, hs] using hid
        · simpa [RedeemCall.holdsCode, RedeemCall.at_, hs] using hid
        · simp [RedeemCall.holdsUsage, RedeemCall.at_]
        · obtain ⟨huser, hbatch⟩ : call.userId = userId ∧ batchId = other := by
            simpa [RedeemCall.holdsBatch, RedeemCall.at_, hsome] using hid
          exact huser ▸ hbatch ▸ none_of_not_any hheld
        · obtain rfl := Option.some.inj (hsome.symm.trans hother)
          exact List.find?_eq_none.mp hfind u hu (by simpa using ⟨huser, hbatch⟩)
  | inserted => exact absurd hs hinserted
  | findUsage =>
    simp only [hs] at hstep
    split at hstep
    · obtain rfl := Option.some.inj hstep
      exact h.finish hk _
    · rename_i usage hfind
      obtain rfl := Option.some.inj hstep
      have husage := List.mem_of_find?_eq_some hfind
      have hcode : usage.redeemCodeId = call.redeemCodeId := by
        have hkeys := List.find?_some hfind
        simp only [Bool.and_eq_true, beq_iff_eq] at hkeys
        exact hkeys.1.1
      refine h.move hk ?_ ?_ ?_ ?_ ⟨h.fresh_usage husage, fun u hu hid => ?_⟩
      · simp [RedeemCall.holdsLock, RedeemCall.at_]
      · simp [RedeemCall.holdsCode, RedeemCall.at_]
      · simp [RedeemCall.holdsUsage, RedeemCall.at_]
      · simp [RedeemCall.holdsBatch, RedeemCall.at_]
      · rw [h.eq_of_id hu husage hid]
        exact hcode
  | found usageId =>
    simp only [hs] at hstep
    simp only [CallInv, hs] at hinv
    split_ifs at hstep with hthere hheld
    · obtain rfl := Option.some.inj hstep
      refine h.move hk ?_ ?_ (fun id hid => .inr ?_) ?_ ⟨hinv, ?_⟩
      · simp [RedeemCall.holdsLock, RedeemCall.at_]
      · simp [RedeemCall.holdsCode, RedeemCall.at_]
      · have hsame : usageId = id := by
          simpa [RedeemCall.holdsUsage, RedeemCall.at_] using hid
        exact hsame ▸ none_of_not_any hheld
      · simp [RedeemCall.holdsBatch, RedeemCall.at_]
      · obtain ⟨u, hu, hid⟩ := List.any_eq_true.mp hthere
        exact ⟨u, hu, by simpa using hid⟩
    · obtain rfl := Option.some.inj hstep
      exact h.finish hk _
  | deleted usageId =>
    simp only [hs] at hstep
    simp only [CallInv, hs] at hinv
    obtain ⟨hown, u, hu, hid⟩ := hinv
    -- the counter counts the usage, which is still there for the others
    have hcounts : (w.codes call.redeemCodeId).any (fun c => 0 < c.usedCount) = true := by
      obtain ⟨code, hcode⟩ := Option.isSome_iff_exists.mp (hown.2 u hu hid ▸ h.owned u hu)
      have hpositive : 0 < code.usedCount := by
        rw [(h.counted _ code hcode).1]
        exact List.countP_pos_iff.mpr ⟨u, hu, by simpa using hown.2 u hu hid⟩
      simpa [hcode] using hpositive
    rw [if_pos hcounts] at hstep
    split_ifs at hstep with hheld
    obtain rfl := Option.some.inj hstep
    refine h.move hk ?_ (fun id hid' => .inr ?_) (fun id hid' => .inl ?_) ?_
      ⟨hown, ⟨u, hu, hid⟩, rfl⟩
    · simp [RedeemCall.holdsLock, RedeemCall.at_]
    · have hcode : call.redeemCodeId = id := by
        simpa [RedeemCall.holdsCode, RedeemCall.at_] using hid'
      exact hcode ▸ none_of_not_any hheld
    · simpa [RedeemCall.holdsUsage, RedeemCall.at_, hs] using hid'
    · simp [RedeemCall.holdsBatch, RedeemCall.at_]
  | decremented usageId lowered =>
    cases lowered
    · exact absurd hs (hstage' usageId)
    · exact absurd hs (hstage usageId)
  | done outcome =>
    simp only [hs] at hstep
    cases hstep

/-! ## The counters under a commit -/

theorem RedeemWorld.commitRedemption_codes_ne (w : RedeemWorld) (call : RedeemCall) {id : ℕ}
    (hid : id ≠ call.redeemCodeId) : (w.commitRedemption call).codes id = w.codes id :=
  Function.update_of_ne hid _ _

theorem RedeemWorld.commitRelease_codes_ne (w : RedeemWorld) (call : RedeemCall)
    (usageId : ℕ) (lowered : Bool) {id : ℕ} (hid : id ≠ call.redeemCodeId) :
    (w.commitRelease call usageId lowered).codes id = w.codes id := by
  cases lowered
  · rfl
  · exact Function.update_of_ne hid _ _

/-- The room that another call has found stays, since the counter it holds is another one. -/
theorem RedeemInv.hasRoom_of_other (h : RedeemInv w) (hk : w.calls[k]? = some call)
    (hheld : call.holdsCode call.redeemCodeId = true) {j : ℕ} (hjk : j ≠ k)
    (hj : w.calls[j]? = some call')
    (hcodes : ∀ id, id ≠ call.redeemCodeId → w'.codes id = w.codes id)
    (hholds : call'.holdsCode call'.redeemCodeId = true) (hroom : w.HasRoom call'.redeemCodeId) :
    w'.HasRoom call'.redeemCodeId := by
  have hother : call'.redeemCodeId ≠ call.redeemCodeId := by
    intro hsame
    exact hjk (h.code call.redeemCodeId j k call' call hj hk (hsame ▸ hholds) hheld)
  rwa [RedeemWorld.HasRoom, hcodes _ hother]

/-! ## The commit of a redemption -/

/-- No other call relies on anything that the commit of a redemption changes. -/
theorem RedeemInv.callInv_redemption (h : RedeemInv w) (hk : w.calls[k]? = some call)
    (hs : call.stage = .inserted) {j : ℕ} (hjk : j ≠ k) (hj : w.calls[j]? = some call') :
    CallInv (w.commitRedemption call) call' := by
  have hinv := h.calls call' (List.mem_of_getElem? hj)
  -- whoever has checked the same code would hold its lock as well
  have hunused : call'.holdsLock call'.redeemCodeId = true →
      (∀ u ∈ w.usages, u.redeemCodeId = call'.redeemCodeId → u.userId ≠ call'.userId) →
      ∀ u ∈ (w.commitRedemption call).usages,
        u.redeemCodeId = call'.redeemCodeId → u.userId ≠ call'.userId := by
    intro hholds hbefore u hu hcode
    rcases List.mem_append.mp hu with hu | hu
    · exact hbefore u hu hcode
    · obtain rfl := List.mem_singleton.mp hu
      refine absurd (h.lock call.redeemCodeId j k call' call hj hk ?_ ?_) hjk
      · exact (show call.redeemCodeId = call'.redeemCodeId from hcode) ▸ hholds
      · simp [RedeemCall.holdsLock, hs]
  have hroom : call'.holdsCode call'.redeemCodeId = true → w.HasRoom call'.redeemCodeId →
      (w.commitRedemption call).HasRoom call'.redeemCodeId :=
    h.hasRoom_of_other hk (by simp [RedeemCall.holdsCode, hs]) hjk hj
      fun _ => w.commitRedemption_codes_ne call
  have hown : ∀ id, (id < w.nextId ∧ ∀ u ∈ w.usages, u.id = id →
        u.redeemCodeId = call'.redeemCodeId) →
      id < (w.commitRedemption call).nextId ∧ ∀ u ∈ (w.commitRedemption call).usages,
        u.id = id → u.redeemCodeId = call'.redeemCodeId := by
    rintro id ⟨hid, hbefore⟩
    refine ⟨Nat.lt_succ_of_lt hid, fun u hu hu' => ?_⟩
    rcases List.mem_append.mp hu with hu | hu
    · exact hbefore u hu hu'
    · obtain rfl := List.mem_singleton.mp hu
      exact absurd hu' (Nat.ne_of_gt hid)
  have hthere : ∀ id, (∃ u ∈ w.usages, u.id = id) →
      ∃ u ∈ (w.commitRedemption call).usages, u.id = id := by
    rintro id ⟨u, hu, hid⟩
    exact ⟨u, List.mem_append_left _ hu, hid⟩
  cases hs' : call'.stage <;> simp only [CallInv, hs'] at hinv ⊢
  case unusedByUser => exact hunused (by simp [RedeemCall.holdsLock, hs']) hinv
  case checked => exact hunused (by simp [RedeemCall.holdsLock, hs']) hinv
  case counted =>
    exact ⟨hunused (by simp [RedeemCall.holdsLock, hs']) hinv.1,
      hroom (by simp [RedeemCall.holdsCode, hs']) hinv.2⟩
  case inserted =>
    refine ⟨hunused (by simp [RedeemCall.holdsLock, hs']) hinv.1,
      hroom (by simp [RedeemCall.holdsCode, hs']) hinv.2.1, fun batchId hbatch u hu huser => ?_⟩
    rcases List.mem_append.mp hu with hu | hu
    · exact hinv.2.2 batchId hbatch u hu huser
    · obtain rfl := List.mem_singleton.mp hu
      intro hsame
      refine hjk (h.batch call'.userId batchId j k call' call hj hk ?_ ?_)
      · simp [RedeemCall.holdsBatch, hs', hbatch]
      · exact by simpa [RedeemCall.holdsBatch, hs] using ⟨huser, hsame⟩
  case found id => exact hown id hinv
  case deleted id => exact ⟨hown id hinv.1, hthere id hinv.2⟩
  case decremented id lowered => exact ⟨hown id hinv.1, hthere id hinv.2.1, hinv.2.2⟩

theorem RedeemInv.redeem_commit (h : RedeemInv w) (hk : w.calls[k]? = some call)
    (hs : call.stage = .inserted) :
    RedeemInv ((w.commitRedemption call).setCall k (call.at_ (.done (.ok ())))) := by
  have hinv := h.calls call (List.mem_of_getElem? hk)
  simp only [CallInv, hs] at hinv
  obtain ⟨hunused, ⟨code, hcode, hless⟩, hbatch⟩ := hinv
  have hover := h.finish hk (.ok ())
  refine { hover with
    counted := ?_
    oncePerCode := ?_
    oncePerBatch := ?_
    undone := ?_
    once := ?_
    fresh := ?_
    owned := ?_
    calls := ?_ }
  · intro id code' hcode'
    by_cases hid : id = call.redeemCodeId
    · subst hid
      obtain rfl : { code with usedCount := code.usedCount + 1 } = code' := by
        simpa [RedeemWorld.setCall, RedeemWorld.commitRedemption, hcode] using hcode'
      refine ⟨?_, hless⟩
      simp [RedeemWorld.usageCount, RedeemWorld.setCall, RedeemWorld.commitRedemption,
        (h.counted _ code hcode).1]
    · have hbefore : w.codes id = some code' :=
        (w.commitRedemption_codes_ne call hid).symm.trans hcode'
      have hother : (call.redeemCodeId == id) = false := by simpa using Ne.symm hid
      simpa [RedeemWorld.usageCount, RedeemWorld.setCall, RedeemWorld.commitRedemption, hother]
        using h.counted id code' hbefore
  · refine Keyed.nodup_append_singleton h.oncePerCode ?_
    intro u hu hsame
    exact hunused u hu (congrArg Prod.fst hsame) (congrArg Prod.snd hsame)
  · show ((w.usages ++ [_]).filterMap _).Nodup
    rw [List.filterMap_append]
    refine List.nodup_append.mpr ⟨h.oncePerBatch, ?_, ?_⟩
    · cases call.batchId <;> simp
    · intro key hkey key' hkey' hsame
      obtain ⟨u, hu, hukey⟩ := List.mem_filterMap.mp hkey
      obtain ⟨b, hb, rfl⟩ := Option.map_eq_some_iff.mp hukey
      cases hcall : call.batchId with
      | none => simp [hcall] at hkey'
      | some batchId =>
        simp only [hcall, List.filterMap_cons, List.filterMap_nil, Option.map_some,
          List.mem_singleton] at hkey'
        obtain rfl := hkey'
        obtain ⟨huser, rfl⟩ := Prod.mk.inj hsame
        exact hbatch b hcall u hu huser hb
  · show ((w.usages ++ [_]).map RedeemCodeUsage.id ++ w.released).Perm (w.redeemed ++ [w.nextId])
    rw [List.map_append, List.append_assoc]
    exact (List.perm_middle.trans ((h.undone.cons _).trans (List.perm_append_singleton _ _).symm))
  · refine List.nodup_append.mpr ⟨h.once, List.nodup_singleton _, fun id hid id' hid' hsame => ?_⟩
    obtain rfl := List.mem_singleton.mp hid'
    exact Nat.ne_of_lt (h.fresh id hid) hsame
  · exact Keyed.below_concat h.fresh (Nat.le_succ _) (Nat.lt_succ_self _)
  · intro u hu
    have hsome : ∀ id, (w.codes id).isSome →
        ((w.commitRedemption call).codes id).isSome := by
      intro id hid
      by_cases hsame : id = call.redeemCodeId
      · simp [RedeemWorld.commitRedemption, hsame, hcode]
      · rwa [w.commitRedemption_codes_ne call hsame]
    rcases List.mem_append.mp hu with hu | hu
    · exact hsome _ (h.owned u hu)
    · obtain rfl := List.mem_singleton.mp hu
      exact hsome _ (by simp [hcode])
  · intro c hc
    rcases mem_set_cases hc with rfl | ⟨j, hjk, hj⟩
    · trivial
    · exact h.callInv_redemption hk hs hjk hj

/-! ## The commit of a release -/

/-- The release takes one usage away, the one it has found. -/
theorem RedeemInv.perm_filter (h : RedeemInv w) {usage : RedeemCodeUsage} (hu : usage ∈ w.usages) :
    w.usages.Perm (usage :: w.usages.filter fun u => u.id != usage.id) := by
  have hnodup := List.Nodup.of_map _ h.nodup_ids
  refine (List.perm_ext_iff_of_nodup hnodup ?_).mpr fun u => ?_
  · exact List.nodup_cons.mpr ⟨by simp, hnodup.filter _⟩
  · rw [List.mem_cons, List.mem_filter]
    constructor
    · intro hmem
      by_cases hid : u.id = usage.id
      · exact .inl (h.eq_of_id hmem hu hid)
      · exact .inr ⟨hmem, by simpa using hid⟩
    · rintro (rfl | ⟨hmem, -⟩)
      · exact hu
      · exact hmem

/-- No other call relies on anything that the commit of a release changes. -/
theorem RedeemInv.callInv_release (h : RedeemInv w) (hk : w.calls[k]? = some call) {usageId : ℕ}
    (hs : call.stage = .decremented usageId true) {j : ℕ} (hjk : j ≠ k)
    (hj : w.calls[j]? = some call') : CallInv (w.commitRelease call usageId true) call' := by
  have hinv := h.calls call' (List.mem_of_getElem? hj)
  have hsub : ∀ u ∈ (w.commitRelease call usageId true).usages, u ∈ w.usages :=
    fun u hu => List.mem_of_mem_filter hu
  have hroom : call'.holdsCode call'.redeemCodeId = true → w.HasRoom call'.redeemCodeId →
      (w.commitRelease call usageId true).HasRoom call'.redeemCodeId :=
    h.hasRoom_of_other hk (by simp [RedeemCall.holdsCode, hs]) hjk hj
      fun _ => w.commitRelease_codes_ne call usageId true
  have hthere : ∀ id, call'.holdsUsage id = true → (∃ u ∈ w.usages, u.id = id) →
      ∃ u ∈ (w.commitRelease call usageId true).usages, u.id = id := by
    rintro id hholds ⟨u, hu, rfl⟩
    refine ⟨u, List.mem_filter.mpr ⟨hu, ?_⟩, rfl⟩
    simp only [bne_iff_ne, ne_eq]
    intro hsame
    refine hjk (h.usage u.id j k call' call hj hk hholds ?_)
    simp [RedeemCall.holdsUsage, hs, hsame]
  cases hs' : call'.stage <;> simp only [CallInv, hs'] at hinv ⊢
  case unusedByUser => exact fun u hu => hinv u (hsub u hu)
  case checked => exact fun u hu => hinv u (hsub u hu)
  case counted =>
    exact ⟨fun u hu => hinv.1 u (hsub u hu), hroom (by simp [RedeemCall.holdsCode, hs']) hinv.2⟩
  case inserted =>
    exact ⟨fun u hu => hinv.1 u (hsub u hu), hroom (by simp [RedeemCall.holdsCode, hs']) hinv.2.1,
      fun batchId hbatch u hu => hinv.2.2 batchId hbatch u (hsub u hu)⟩
  case found id => exact ⟨hinv.1, fun u hu => hinv.2 u (hsub u hu)⟩
  case deleted id =>
    exact ⟨⟨hinv.1.1, fun u hu => hinv.1.2 u (hsub u hu)⟩,
      hthere id (by simp [RedeemCall.holdsUsage, hs']) hinv.2⟩
  case decremented id lowered =>
    exact ⟨⟨hinv.1.1, fun u hu => hinv.1.2 u (hsub u hu)⟩,
      hthere id (by simp [RedeemCall.holdsUsage, hs']) hinv.2.1, hinv.2.2⟩

theorem RedeemInv.release_commit (h : RedeemInv w) (hk : w.calls[k]? = some call) {usageId : ℕ}
    (hs : call.stage = .decremented usageId true) :
    RedeemInv ((w.commitRelease call usageId true).setCall k (call.at_ (.done (.ok ())))) := by
  have hinv := h.calls call (List.mem_of_getElem? hk)
  simp only [CallInv, hs] at hinv
  obtain ⟨⟨-, hown⟩, ⟨usage, hu, rfl⟩, -⟩ := hinv
  have hcode := hown usage hu rfl
  have hperm := h.perm_filter hu
  have hover := h.finish hk (.ok ())
  refine { hover with
    counted := ?_
    oncePerCode := ?_
    oncePerBatch := ?_
    undone := ?_
    owned := ?_
    calls := ?_ }
  · intro id code' hcode'
    have hcount : w.usageCount id = (if usage.redeemCodeId = id then 1 else 0) +
        (w.usages.filter fun u => u.id != usage.id).countP fun u => u.redeemCodeId == id := by
      rw [RedeemWorld.usageCount, hperm.countP_eq, List.countP_cons, Nat.add_comm]
      simp
    show code'.usedCount = (w.usages.filter fun u => u.id != usage.id).countP _ ∧ _
    by_cases hid : id = call.redeemCodeId
    · subst hid
      cases hbefore : w.codes call.redeemCodeId with
      | none => simp [RedeemWorld.setCall, RedeemWorld.commitRelease, hbefore] at hcode'
      | some code =>
        obtain rfl : { code with usedCount := code.usedCount - 1 } = code' := by
          simpa [RedeemWorld.setCall, RedeemWorld.commitRelease, hbefore] using hcode'
        rw [if_pos hcode] at hcount
        obtain ⟨hcounted, hbound⟩ := h.counted _ code hbefore
        constructor
        · show code.usedCount - 1 = _
          omega
        · show code.usedCount - 1 ≤ code.maxUses
          omega
    · have hbefore : w.codes id = some code' :=
        (w.commitRelease_codes_ne call usage.id true hid).symm.trans hcode'
      rw [if_neg (fun hsame => hid (hsame.symm.trans hcode)), Nat.zero_add] at hcount
      exact hcount ▸ h.counted id code' hbefore
  · exact h.oncePerCode.sublist (List.filter_sublist.map _)
  · exact h.oncePerBatch.sublist (List.filter_sublist.filterMap _)
  · show ((w.usages.filter _).map RedeemCodeUsage.id ++ (w.released ++ [usage.id])).Perm w.redeemed
    refine List.Perm.trans ?_ h.undone
    rw [← List.append_assoc]
    refine (List.perm_append_singleton _ _).trans ?_
    exact (hperm.map RedeemCodeUsage.id).symm.append_right _
  · intro u hmem
    have hsome : ∀ id, (w.codes id).isSome →
        ((w.commitRelease call usage.id true).codes id).isSome := by
      intro id hid
      by_cases hsame : id = call.redeemCodeId
      · subst hsame
        simpa [RedeemWorld.commitRelease] using hid
      · rwa [w.commitRelease_codes_ne call usage.id true hsame]
    exact hsome _ (h.owned u (List.mem_of_mem_filter hmem))
  · intro c hc
    rcases mem_set_cases hc with rfl | ⟨j, hjk, hj⟩
    · trivial
    · exact h.callInv_release hk hs hjk hj

/-! ## Runs -/

/-- A call that has just been made holds nothing and has found out nothing. -/
theorem RedeemInv.open (h : RedeemInv w)
    (hlock : ∀ id, call.holdsLock id = false) (hcode : ∀ id, call.holdsCode id = false)
    (husage : ∀ id, call.holdsUsage id = false)
    (hbatch : ∀ userId batchId, call.holdsBatch userId batchId = false) (hcall : CallInv w call) :
    RedeemInv { w with calls := w.calls ++ [call] } :=
  { h with
    lock := fun id => (h.lock id).append_singleton (by simp [hlock])
    code := fun id => (h.code id).append_singleton (by simp [hcode])
    usage := fun id => (h.usage id).append_singleton (by simp [husage])
    batch := fun userId batchId => (h.batch userId batchId).append_singleton (by simp [hbatch])
    calls := by
      intro c hc
      rcases List.mem_append.mp hc with hc | hc
      · exact h.calls c hc
      · exact List.mem_singleton.mp hc ▸ hcall }

theorem RedeemInv.step {event : RedeemEvent} (h : RedeemInv w)
    (hstep : redeemStep w event = some w') : RedeemInv w' := by
  cases event with
  | useSystemRedeemCode redeemCodeId userId instanceId batchId =>
    obtain rfl := Option.some.inj hstep
    exact h.open (by simp [RedeemCall.holdsLock]) (by simp [RedeemCall.holdsCode])
      (by simp [RedeemCall.holdsUsage]) (by simp [RedeemCall.holdsBatch]) trivial
  | releaseSystemRedeemCode redeemCodeId userId instanceId =>
    obtain rfl := Option.some.inj hstep
    exact h.open (by simp [RedeemCall.holdsLock]) (by simp [RedeemCall.holdsCode])
      (by simp [RedeemCall.holdsUsage]) (by simp [RedeemCall.holdsBatch]) trivial
  | statement k =>
    simp only [redeemStep] at hstep
    cases hk : w.calls[k]? with
    | none => simp [hk] at hstep
    | some call =>
      simp only [hk] at hstep
      by_cases hinserted : call.stage = .inserted
      · simp only [RedeemWorld.statement, hinserted] at hstep
        obtain rfl := Option.some.inj hstep
        exact h.redeem_commit hk hinserted
      by_cases hdecremented : ∃ id lowered, call.stage = .decremented id lowered
      · obtain ⟨id, lowered, hs⟩ := hdecremented
        have hlowered : lowered = true := by
          have hinv := h.calls call (List.mem_of_getElem? hk)
          simp only [CallInv, hs] at hinv
          exact hinv.2.2
        subst hlowered
        simp only [RedeemWorld.statement, hs] at hstep
        obtain rfl := Option.some.inj hstep
        exact h.release_commit hk hs
      · exact h.redeem_move hk hstep (fun id hs => hdecremented ⟨id, true, hs⟩)
          (fun id hs => hdecremented ⟨id, false, hs⟩) hinserted
  | crash k =>
    simp only [redeemStep] at hstep
    cases hk : w.calls[k]? with
    | none => simp [hk] at hstep
    | some call =>
      simp only [hk] at hstep
      split at hstep
      · cases hstep
      · obtain rfl := Option.some.inj hstep
        exact h.finish hk _

/-- No redemption or release is under way, and what there is was redeemed before. -/
structure RedeemStart (w : RedeemWorld) : Prop extends CodesExact w where
  fresh : ∀ id ∈ w.redeemed, id < w.nextId
  owned : ∀ u ∈ w.usages, (w.codes u.redeemCodeId).isSome
  quiet : w.calls = []

theorem RedeemStart.inv (h : RedeemStart w) : RedeemInv w :=
  { h with
    lock := fun _ => h.quiet ▸ Exclusive.nil
    code := fun _ => h.quiet ▸ Exclusive.nil
    usage := fun _ => h.quiet ▸ Exclusive.nil
    batch := fun _ _ => h.quiet ▸ Exclusive.nil
    calls := fun call hcall => by simp [h.quiet] at hcall }

end Moves

/-- However redemptions and releases interleave, a code is counted as often as it is used, never
above its bound, by no user twice, and a release undoes one redemption once. -/
theorem codes_exact {w₀ w : RedeemWorld} (h₀ : RedeemStart w₀)
    (hrun : Machine.Reach redeemStep Machine.free w₀ w) : CodesExact w := by
  have hinv : RedeemInv w := by
    refine hrun.invariant (P := RedeemInv) h₀.inv ?_
    intro t u event ht _ hstep
    exact ht.step hstep
  exact hinv.toCodesExact

/-- Two codes of one batch, the first for one use. -/
def springCodes : RedeemWorld where
  codes := fun id =>
    if id = 1 then some { maxUses := 1 } else if id = 2 then some { maxUses := 5 } else none

/-- User 7 redeems both codes at once, user 8 comes too late, and again after the release. -/
def springRedemptions : List RedeemEvent :=
  [.useSystemRedeemCode 1 7 100 (some "spring"), .useSystemRedeemCode 2 7 101 (some "spring")] ++
  [0, 1, 0, 1, 0, 1, 0, 1, 0, 0, 1].map .statement ++
  [.useSystemRedeemCode 1 8 102 none] ++ [2, 2, 2, 2].map .statement ++
  [.releaseSystemRedeemCode 1 7 100] ++ [3, 3, 3, 3].map .statement ++
  [.useSystemRedeemCode 1 8 102 none] ++ [4, 4, 4, 4, 4, 4].map .statement

theorem springCodes_start : RedeemStart springCodes where
  counted := by
    intro id code hcode
    simp only [springCodes] at hcode
    split_ifs at hcode <;> obtain rfl := Option.some.inj hcode
    · exact ⟨rfl, Nat.zero_le _⟩
    · exact ⟨rfl, Nat.zero_le _⟩
  oncePerCode := List.nodup_nil
  oncePerBatch := List.nodup_nil
  undone := List.Perm.refl _
  once := List.nodup_nil
  fresh := by
    intro id hid
    cases hid
  owned := by
    intro u hu
    cases hu
  quiet := rfl

theorem codes_exact_spring :
    ∃ w, Machine.exec redeemStep springCodes springRedemptions = some w ∧
      (w.codes 1).map RedeemCode.usedCount = some 1 ∧
      w.usages.map (fun u => (u.redeemCodeId, u.userId)) = [(1, 8)] ∧
      w.redeemed = [1, 2] ∧ w.released = [1] ∧ CodesExact w := by
  have hvalues : (Machine.exec redeemStep springCodes springRedemptions).map
      (fun w => ((w.codes 1).map RedeemCode.usedCount,
        w.usages.map (fun u => (u.redeemCodeId, u.userId)), w.redeemed, w.released)) =
      some (some 1, [(1, 8)], [1, 2], [1]) := by decide +kernel
  obtain ⟨w, hexec, hw⟩ := Option.map_eq_some_iff.mp hvalues
  simp only [Prod.mk.injEq] at hw
  exact ⟨w, hexec, hw.1, hw.2.1, hw.2.2.1, hw.2.2.2,
    codes_exact springCodes_start (Machine.reach_of_exec hexec)⟩

end Incudal
