/-
# `ResourcePool` — credits that a user may put into an instance

A user's pool holds credits of four kinds.  A grant adds to it, an application
takes from it by one conditional update, changes the instance, and gives back
what it took if that fails.  Each change of the pool writes a row of the log in
the same transaction.

So what was granted is what remains and what was consumed, in every order of
the calls.  An addition does not look at the sign of its amount, unlike the
deduction, and prizes may be worth less than nothing (`pool_negative`).
-/
import Incudal.Basic
import Incudal.Lib.Keyed
import Incudal.Lib.Machine
import Mathlib.Data.Rat.Cast.Order

namespace Incudal

/-! ## Rows -/

/-- `RedeemCodeType`; points are not a resource. -/
inductive ResourceType
  | c | r | d | t | p
deriving DecidableEq, Repr

inductive PoolField
  | cpu | memory | disk | traffic
deriving DecidableEq, Repr

/-- `RESOURCE_FIELD_MAP`. -/
def RESOURCE_FIELD_MAP : ResourceType → Option PoolField
  | .c => some .cpu
  | .r => some .memory
  | .d => some .disk
  | .t => some .traffic
  | .p => none

inductive ResourcePoolAction
  | checkin | redeem | adminGrant | systemGrant | lottery | apply | refund | systemRedeem
deriving DecidableEq, Repr

/-- A row of `user_resource_pools`. -/
structure PoolRow where
  userId : ℕ
  cpu : ℤ := 0
  memory : ℤ := 0
  disk : ℤ := 0
  traffic : ℤ := 0
deriving DecidableEq, Repr

def PoolRow.get (pool : PoolRow) : PoolField → ℤ
  | .cpu => pool.cpu
  | .memory => pool.memory
  | .disk => pool.disk
  | .traffic => pool.traffic

/-- `increment`. -/
def PoolRow.add (pool : PoolRow) (field : PoolField) (n : ℤ) : PoolRow :=
  match field with
  | .cpu => { pool with cpu := pool.cpu + n }
  | .memory => { pool with memory := pool.memory + n }
  | .disk => { pool with disk := pool.disk + n }
  | .traffic => { pool with traffic := pool.traffic + n }

/-- A row of `resource_pool_logs`. -/
structure PoolLogRow where
  userId : ℕ
  action : ResourcePoolAction
  resourceType : ResourceType
  amount : ℤ
  instanceId : Option ℕ := none
deriving DecidableEq, Repr

/-- What a column of `Int` can hold. -/
def fitsInt (n : ℤ) : Bool := -2 ^ 31 ≤ n && n < 2 ^ 31

/-- What the column of a resource can hold; traffic is a `BigInt`. -/
def PoolField.fits : PoolField → ℤ → Bool
  | .traffic, n => -2 ^ 63 ≤ n && n < 2 ^ 63
  | _, n => fitsInt n

/-- A number as a whole number, if it is one. -/
def wholeNumber (amount : ℚ) : Option ℤ := if amount.den = 1 then some amount.num else none

/-- `Number.isSafeInteger`. -/
def isSafeInteger (amount : ℚ) : Bool :=
  (wholeNumber amount).any fun n => -(2 ^ 53 - 1) ≤ n && n ≤ 2 ^ 53 - 1

/-! ## The tables and the calls -/

/-- `POST /apply`, by what comes next. -/
inductive ApplyStage
  | deducting
  | applying
  | refunding
  | applied
  | failed
deriving DecidableEq, Repr

/-- A call of `POST /apply`; `effect` is what it has changed of the pool so far. -/
structure ApplyCall where
  id : ℕ
  userId : ℕ
  resourceType : ResourceType
  amount : ℚ
  instanceId : ℕ
  stage : ApplyStage := .deducting
  effect : ℤ := 0
deriving DecidableEq, Repr

structure PoolWorld where
  pools : List PoolRow := []
  logs : List PoolLogRow := []
  calls : List ApplyCall := []
  nextCall : ℕ := 0
deriving DecidableEq, Repr

namespace PoolWorld

variable (w : PoolWorld)

/-- `upsert` of a pool: a missing row is made first. -/
def upsert (userId : ℕ) (f : PoolRow → PoolRow) : List PoolRow :=
  if (Keyed.lookup PoolRow.userId userId w.pools).isSome then
    Keyed.modify PoolRow.userId userId f w.pools
  else w.pools ++ [f { userId := userId }]

/-- What a user has of a resource. -/
def remaining (userId : ℕ) (field : PoolField) : ℤ :=
  (Keyed.lookup PoolRow.userId userId w.pools).elim 0 (·.get field)

/-- `getUserResourcePool`, which makes the row. -/
def getUserResourcePool (userId : ℕ) : PoolWorld := { w with pools := w.upsert userId id }

/-- `addToResourcePool`: `none` where the source throws or the transaction fails. -/
def addToResourcePool (userId : ℕ) (resourceType : ResourceType) (amount : ℚ)
    (action : ResourcePoolAction) : Option PoolWorld :=
  match RESOURCE_FIELD_MAP resourceType, wholeNumber amount with
  | some field, some n =>
      if field.fits (w.remaining userId field + n) && fitsInt n then
        some { w with
          pools := w.upsert userId (·.add field n)
          logs := w.logs ++ [{ userId, action, resourceType, amount := n }] }
      else none
  | _, _ => none

/-- `deductFromResourcePool`: the conditional update with its row of the log, or `false`. -/
def deductFromResourcePool (userId : ℕ) (resourceType : ResourceType) (amount : ℚ)
    (instanceId : ℕ) : Option (PoolWorld × Bool) :=
  match RESOURCE_FIELD_MAP resourceType, wholeNumber amount with
  | some field, some n =>
      if !isSafeInteger amount || amount ≤ 0 then none
      else if (Keyed.lookup PoolRow.userId userId w.pools).any fun pool =>
          n ≤ pool.get field then
        if fitsInt (-n) then
          some ({ w with
            pools := Keyed.modify PoolRow.userId userId (·.add field (-n)) w.pools
            logs := w.logs ++
              [{ userId, action := .apply, resourceType, amount := -n
                 instanceId := some instanceId }] }, true)
        else none
      else some (w, false)
  | _, _ => none

/-- `logSystemRedeemToInstance`: a row of the log alone. -/
def logSystemRedeemToInstance (userId : ℕ) (resourceType : ResourceType) (amount : ℤ)
    (instanceId : ℕ) : PoolWorld :=
  { w with
      logs := w.logs ++
        [{ userId, action := .systemRedeem, resourceType, amount, instanceId := some instanceId }] }

/-- A call that is at one of these stages. -/
def callAt (id : ℕ) (stages : List ApplyStage) : Option ApplyCall :=
  (Keyed.lookup ApplyCall.id id w.calls).filter fun call => call.stage ∈ stages

/-- A call goes on, with what it changed. -/
def goto (id : ℕ) (stage : ApplyStage) (n : ℤ) : PoolWorld :=
  { w with
      calls := Keyed.modify ApplyCall.id id
        (fun call => { call with stage, effect := call.effect + n }) w.calls }

end PoolWorld

/-- `CODE_VALUES`. -/
def CODE_VALUES : ResourceType → List ℤ
  | .c => [1, 2, 3, 5]
  | .r => [2, 4, 6, 12]
  | .d => [16, 32, 64, 128]
  | .t => [1, 2, 3, 5]
  | .p => [100, 300, 500, 1000]

/-! ## Steps -/

inductive PoolEvent
  | getUserResourcePool (userId : ℕ)
  /-- `adminGrantResource`, `systemGrantResource` and `lotteryGrantResource` -/
  | grant (userId : ℕ) (resourceType : ResourceType) (amount : ℚ) (action : ResourcePoolAction)
  | performCheckin (userId : ℕ) (resourceType : ResourceType) (i : ℕ)
  /-- the part of `performDraw` for a prize of credits -/
  | drawPrize (userId : ℕ) (resourceType : ResourceType) (value : ℤ)
  | logSystemRedeemToInstance (userId : ℕ) (resourceType : ResourceType) (amount : ℤ)
      (instanceId : ℕ)
  | apply (userId : ℕ) (resourceType : ResourceType) (amount : ℚ) (instanceId : ℕ)
  /-- the statements of a call, each of which may meet an error -/
  | deduct (id : ℕ) (ok : Bool)
  | applyToInstance (id : ℕ) (ok : Bool)
  | refund (id : ℕ) (ok : Bool)
  /-- the process ends -/
  | stop (id : ℕ)
deriving DecidableEq, Repr

/-- The actions of grants. -/
def ResourcePoolAction.isGrant : ResourcePoolAction → Bool
  | .checkin | .redeem | .adminGrant | .systemGrant | .lottery => true
  | .apply | .refund | .systemRedeem => false

/-- One statement of one call; a grant that fails leaves the tables as they are. -/
def poolStep (w : PoolWorld) : PoolEvent → Option PoolWorld
  | .getUserResourcePool userId => some (w.getUserResourcePool userId)
  | .grant userId resourceType amount action =>
      if action ∈ [.adminGrant, .systemGrant, .lottery] then
        some ((w.addToResourcePool userId resourceType amount action).getD w)
      else none
  | .performCheckin userId resourceType i =>
      (CODE_VALUES resourceType)[i]?.map fun value : ℤ =>
        (w.addToResourcePool userId resourceType value .checkin).getD w
  | .drawPrize userId resourceType value =>
      some ((w.addToResourcePool userId resourceType value .lottery).getD w)
  | .logSystemRedeemToInstance userId resourceType amount instanceId =>
      some (w.logSystemRedeemToInstance userId resourceType amount instanceId)
  | .apply userId resourceType amount instanceId =>
      some { w with
        calls := w.calls ++ [{ id := w.nextCall, userId, resourceType, amount, instanceId }]
        nextCall := w.nextCall + 1 }
  | .deduct id ok =>
      (w.callAt id [.deducting]).map fun call =>
        match if ok then
            w.deductFromResourcePool call.userId call.resourceType call.amount call.instanceId
          else none with
        | some (w', true) => w'.goto id .applying (-call.amount.num)
        | _ => w.goto id .failed 0
  | .applyToInstance id ok =>
      (w.callAt id [.applying]).map fun _ => w.goto id (if ok then .applied else .refunding) 0
  | .refund id ok =>
      (w.callAt id [.refunding]).map fun call =>
        match if ok then w.addToResourcePool call.userId call.resourceType call.amount .refund
          else none with
        | some w' => w'.goto id .failed call.amount.num
        | none => w.goto id .failed 0
  | .stop id =>
      (w.callAt id [.deducting, .applying, .refunding]).map fun _ => w.goto id .failed 0

/-! ## What is promised -/

namespace PoolWorld

variable (w : PoolWorld)

/-- The sum of the user's rows of the log on a resource, for some actions. -/
def logged (userId : ℕ) (field : PoolField) (actions : ResourcePoolAction → Bool) : ℤ :=
  Keyed.total (fun log : PoolLogRow =>
    if log.userId = userId ∧ RESOURCE_FIELD_MAP log.resourceType = some field ∧ actions log.action
    then log.amount else 0) w.logs

/-- What was granted to a user. -/
def granted (userId : ℕ) (field : PoolField) : ℤ := w.logged userId field (·.isGrant)

/-- What a user has consumed: what was taken, less what was given back. -/
def consumed (userId : ℕ) (field : PoolField) : ℤ :=
  -w.logged userId field fun action => action == .apply || action == .refund

/-- What the calls of a user have changed. -/
def effects (userId : ℕ) (field : PoolField) : ℤ :=
  Keyed.total (fun call : ApplyCall =>
    if call.userId = userId ∧ RESOURCE_FIELD_MAP call.resourceType = some field
    then call.effect else 0) w.calls

end PoolWorld

/-- No amount is negative; a call that failed has changed nothing, where what a user has is what was
granted and what the calls changed; and what was granted remains or was consumed. -/
structure PoolSafe (w : PoolWorld) : Prop where
  nonneg : ∀ pool ∈ w.pools, ∀ field, 0 ≤ pool.get field
  attributed : ∀ userId field, w.remaining userId field =
    w.granted userId field + w.effects userId field
  unchanged : ∀ call ∈ w.calls, call.stage = .failed → call.effect = 0
  conserved : ∀ userId field, w.granted userId field =
    w.remaining userId field + w.consumed userId field

/-- No grant is negative, and what an application took is given back: neither does the process end
before that, nor does the database fail, and the column has room. -/
def soundStep (w : PoolWorld) : PoolEvent → Bool
  | .grant _ _ amount _ => 0 ≤ amount
  | .drawPrize _ _ value => 0 ≤ value
  | .refund id ok =>
      ok && (Keyed.lookup ApplyCall.id id w.calls).all fun call =>
        (RESOURCE_FIELD_MAP call.resourceType).all fun field =>
          field.fits (w.remaining call.userId field + call.amount.num) && fitsInt call.amount.num
  | .stop id =>
      (Keyed.lookup ApplyCall.id id w.calls).all fun call =>
        call.stage != .applying && call.stage != .refunding
  | _ => true

/-! ## What a posting changes -/

section Postings

variable {w w' : PoolWorld} {userId instanceId : ℕ} {resourceType : ResourceType} {amount : ℚ}
  {action : ResourcePoolAction} {field : PoolField} {n : ℤ}

theorem wholeNumber_eq_some : wholeNumber amount = some n ↔ amount = n := by
  simp only [wholeNumber]
  constructor
  · intro h
    split at h
    · rename_i hden
      obtain rfl := Option.some.inj h
      exact ((Rat.den_eq_one_iff amount).mp hden).symm
    · cases h
  · rintro rfl
    simp

@[simp] theorem PoolRow.get_add (pool : PoolRow) (f : PoolField) :
    (pool.add field n).get f = pool.get f + if f = field then n else 0 := by
  cases field <;> cases f <;> simp [PoolRow.add, PoolRow.get]

@[simp] theorem PoolRow.userId_add (pool : PoolRow) : (pool.add field n).userId = pool.userId := by
  cases field <;> rfl

theorem PoolRow.get_new (f : PoolField) : PoolRow.get { userId := userId } f = 0 := by
  cases f <;> rfl

/-- The pool of a user changes by `n`, with a row of the log. -/
structure PoolPosting (w w' : PoolWorld) (userId : ℕ) (field : PoolField) (n : ℤ)
    (action : ResourcePoolAction) : Prop where
  users : (w.pools.map PoolRow.userId).Nodup → (w'.pools.map PoolRow.userId).Nodup
  remaining : ∀ u f, w'.remaining u f =
    w.remaining u f + if u = userId ∧ f = field then n else 0
  logged : ∀ u f actions, w'.logged u f actions =
    w.logged u f actions + if u = userId ∧ f = field ∧ actions action then n else 0
  calls : w'.calls = w.calls
  nextCall : w'.nextCall = w.nextCall

theorem lookup_upsert {f : PoolRow → PoolRow} (hf : ∀ pool, (f pool).userId = pool.userId) (u : ℕ) :
    Keyed.lookup PoolRow.userId u (w.upsert userId f) =
      if u = userId then
        some (f ((Keyed.lookup PoolRow.userId userId w.pools).getD { userId := userId }))
      else Keyed.lookup PoolRow.userId u w.pools := by
  cases hlookup : Keyed.lookup PoolRow.userId userId w.pools with
  | some pool =>
      rw [PoolWorld.upsert, hlookup, if_pos (by rfl),
        Keyed.lookup_modify fun r hr => (hf r).trans hr, hlookup]
      rfl
  | none =>
      have hnew : (f { userId := userId }).userId = userId := hf _
      rw [PoolWorld.upsert, hlookup, if_neg (by simp), Keyed.lookup_append_singleton, hnew]
      · simp only [eq_comm, Option.getD_none]
      · intro r hr
        rw [hnew]
        exact Keyed.lookup_eq_none_iff.mp hlookup r hr

theorem nodup_upsert {f : PoolRow → PoolRow} (hf : ∀ pool, (f pool).userId = pool.userId)
    (h : (w.pools.map PoolRow.userId).Nodup) : ((w.upsert userId f).map PoolRow.userId).Nodup := by
  cases hlookup : Keyed.lookup PoolRow.userId userId w.pools with
  | some pool =>
      rw [PoolWorld.upsert, hlookup, if_pos (by rfl), Keyed.map_key_modify hf]
      exact h
  | none =>
      rw [PoolWorld.upsert, hlookup, if_neg (by simp)]
      refine Keyed.nodup_append_singleton h fun r hr => ?_
      rw [hf]
      exact Keyed.lookup_eq_none_iff.mp hlookup r hr

theorem logged_append (log : PoolLogRow) (u : ℕ) (f : PoolField)
    (actions : ResourcePoolAction → Bool) :
    PoolWorld.logged { w with logs := w.logs ++ [log] } u f actions = w.logged u f actions +
      if log.userId = u ∧ RESOURCE_FIELD_MAP log.resourceType = some f ∧ actions log.action
      then log.amount else 0 := by
  simp [PoolWorld.logged]

/-- An addition: when it goes through, and what it posts. -/
theorem addToResourcePool_spec
    (h : w.addToResourcePool userId resourceType amount action = some w') :
    ∃ field n, RESOURCE_FIELD_MAP resourceType = some field ∧ wholeNumber amount = some n ∧
      PoolPosting w w' userId field n action := by
  unfold PoolWorld.addToResourcePool at h
  split at h
  · rename_i field n hfield hn
    refine ⟨field, n, hfield, hn, ?_⟩
    split at h
    · obtain rfl := Option.some.inj h
      refine ⟨nodup_upsert fun pool => pool.userId_add, fun u f => ?_, fun u f actions => ?_,
        rfl, rfl⟩
      · simp only [PoolWorld.remaining, lookup_upsert fun pool => PoolRow.userId_add pool]
        by_cases hu : u = userId
        · subst hu
          cases Keyed.lookup PoolRow.userId u w.pools <;> simp [PoolRow.get_new]
        · simp [hu]
      · refine (logged_append _ u f actions).trans ?_
        simp only [hfield, Option.some.injEq, eq_comm]
    · cases h
  · cases h

/-- A deduction: it takes a positive amount that was there. -/
theorem deductFromResourcePool_spec
    (h : w.deductFromResourcePool userId resourceType amount instanceId = some (w', true)) :
    ∃ field n, RESOURCE_FIELD_MAP resourceType = some field ∧ wholeNumber amount = some n ∧
      0 < n ∧ n ≤ w.remaining userId field ∧ PoolPosting w w' userId field (-n) .apply := by
  unfold PoolWorld.deductFromResourcePool at h
  split at h
  · rename_i field n hfield hn
    refine ⟨field, n, hfield, hn, ?_⟩
    split at h
    · cases h
    · rename_i hamount
      have hpos : 0 < n := by
        simp only [Bool.or_eq_true, decide_eq_true_eq, not_or] at hamount
        rw [wholeNumber_eq_some.mp hn] at hamount
        exact_mod_cast not_le.mp hamount.2
      refine ⟨hpos, ?_⟩
      split at h
      · rename_i henough
        obtain ⟨pool, hpool, hle⟩ := Option.any_eq_true _ _ |>.mp henough
        refine ⟨by simpa [PoolWorld.remaining, hpool] using hle, ?_⟩
        split at h
        · obtain ⟨rfl, -⟩ := Prod.mk.inj (Option.some.inj h)
          refine ⟨fun hn => ?_, fun u f => ?_, fun u f actions => ?_, rfl, rfl⟩
          · dsimp only
            rw [Keyed.map_key_modify fun r => PoolRow.userId_add r]
            exact hn
          · simp only [PoolWorld.remaining]
            rw [Keyed.lookup_modify fun r hr => (PoolRow.userId_add r).trans hr]
            by_cases hu : u = userId
            · subst hu
              simp [hpool]
            · simp [hu]
          · refine (logged_append _ u f actions).trans ?_
            simp only [hfield, Option.some.injEq, eq_comm]
        · cases h
      · cases h
  · cases h

end Postings

/-! ## The invariant -/

/-- What a call has changed so far, by its stage. -/
def ApplyCall.Settled (call : ApplyCall) : Prop :=
  match call.stage with
  | .deducting | .failed => call.effect = 0
  | .applying | .refunding => ∃ field n, RESOURCE_FIELD_MAP call.resourceType = some field ∧
      wholeNumber call.amount = some n ∧ 0 < n ∧ call.effect = -n
  | .applied => True

structure PoolInv (w : PoolWorld) : Prop where
  users : (w.pools.map PoolRow.userId).Nodup
  ids : (w.calls.map ApplyCall.id).Nodup
  below : ∀ call ∈ w.calls, call.id < w.nextCall
  nonneg : ∀ userId field, 0 ≤ w.remaining userId field
  conserved : ∀ userId field, w.granted userId field =
    w.remaining userId field + w.consumed userId field
  attributed : ∀ userId field, w.consumed userId field = -w.effects userId field
  settled : ∀ call ∈ w.calls, call.Settled

section Invariant

variable {w w' : PoolWorld} {event : PoolEvent} {userId id : ℕ} {resourceType : ResourceType}
  {amount : ℚ} {action : ResourcePoolAction} {field : PoolField} {n : ℤ} {call : ApplyCall}
  {stage : ApplyStage}

/-- The invariant gives what is promised. -/
theorem PoolInv.safe (h : PoolInv w) : PoolSafe w where
  nonneg := by
    intro pool hpool field
    have hnonneg := h.nonneg pool.userId field
    rwa [PoolWorld.remaining, Keyed.lookup_of_mem h.users hpool] at hnonneg
  attributed := by
    intro userId field
    have hconserved := h.conserved userId field
    have hattributed := h.attributed userId field
    omega
  unchanged := by
    intro call hcall hfailed
    have hsettled := h.settled call hcall
    rwa [ApplyCall.Settled, hfailed] at hsettled
  conserved := h.conserved

theorem PoolPosting.granted (h : PoolPosting w w' userId field n action) (u : ℕ) (f : PoolField) :
    w'.granted u f = w.granted u f + if u = userId ∧ f = field ∧ action.isGrant then n else 0 :=
  h.logged u f _

theorem PoolPosting.consumed (h : PoolPosting w w' userId field n action) (u : ℕ) (f : PoolField) :
    w'.consumed u f = w.consumed u f -
      if u = userId ∧ f = field ∧ (action == .apply || action == .refund) then n else 0 := by
  rw [PoolWorld.consumed, h.logged, neg_add, ← sub_eq_add_neg]
  rfl

theorem PoolPosting.effects (h : PoolPosting w w' userId field n action) (u : ℕ) (f : PoolField) :
    w'.effects u f = w.effects u f := by
  rw [PoolWorld.effects, h.calls]
  rfl

/-- A grant of nothing less than nothing. -/
theorem PoolInv.grant (h : PoolInv w) (hpost : PoolPosting w w' userId field n action)
    (hgrant : action.isGrant = true) (hn : 0 ≤ n) : PoolInv w' where
  users := hpost.users h.users
  ids := hpost.calls ▸ h.ids
  below := hpost.calls ▸ hpost.nextCall ▸ h.below
  nonneg := by
    intro u f
    rw [hpost.remaining]
    have hnonneg := h.nonneg u f
    split <;> omega
  conserved := by
    intro u f
    have hother : (action == .apply || action == .refund) = false := by
      cases action <;> simp_all [ResourcePoolAction.isGrant]
    rw [hpost.granted, hpost.remaining, hpost.consumed, h.conserved, hother, hgrant]
    simp only [and_true, and_false, if_false, Bool.false_eq_true]
    omega
  attributed := by
    intro u f
    have hother : (action == .apply || action == .refund) = false := by
      cases action <;> simp_all [ResourcePoolAction.isGrant]
    rw [hpost.consumed, hpost.effects, h.attributed, hother]
    simp
  settled := hpost.calls ▸ h.settled

/-- A call moves on, and has changed `n` more. -/
theorem effects_goto (h : (w.calls.map ApplyCall.id).Nodup) (hcall : call ∈ w.calls) (u : ℕ)
    (f : PoolField) : (w.goto call.id stage n).effects u f = w.effects u f +
      if call.userId = u ∧ RESOURCE_FIELD_MAP call.resourceType = some f then n else 0 := by
  simp only [PoolWorld.effects, PoolWorld.goto, Keyed.total_modify h hcall]
  split <;> omega

/-- A call moves on with what it changed of the pool. -/
theorem PoolInv.goto {w₀ : PoolWorld} (h : PoolInv w₀) (hcall : call ∈ w₀.calls)
    (hcalls : w.calls = w₀.calls) (hnext : w.nextCall = w₀.nextCall)
    (husers : (w.pools.map PoolRow.userId).Nodup) (hnonneg : ∀ u f, 0 ≤ w.remaining u f)
    (hconserved : ∀ u f, w.granted u f = w.remaining u f + w.consumed u f)
    (hconsumed : ∀ u f, w.consumed u f = w₀.consumed u f -
      if call.userId = u ∧ RESOURCE_FIELD_MAP call.resourceType = some f then n else 0)
    (hsettled : ApplyCall.Settled { call with stage, effect := call.effect + n }) :
    PoolInv (w.goto call.id stage n) where
  users := husers
  ids := by
    simp only [PoolWorld.goto]
    rw [Keyed.map_key_modify, hcalls]
    · exact h.ids
    · exact fun _ => rfl
  below := by
    intro c hc
    obtain ⟨c₀, hc₀, rfl⟩ := Keyed.mem_modify.mp hc
    have hlt := hnext ▸ h.below c₀ (hcalls ▸ hc₀)
    split <;> exact hlt
  nonneg := hnonneg
  conserved := hconserved
  attributed := by
    intro u f
    have hsame : w.effects u f = w₀.effects u f := by rw [PoolWorld.effects, hcalls]; rfl
    rw [effects_goto (hcalls ▸ h.ids) (hcalls ▸ hcall), hsame]
    refine (hconsumed u f).trans ?_
    rw [h.attributed]
    omega
  settled := by
    intro c hc
    obtain ⟨c₀, hc₀, rfl⟩ := Keyed.mem_modify.mp hc
    split
    · rename_i hid
      obtain rfl := List.inj_on_of_nodup_map h.ids (hcalls ▸ hc₀) hcall hid
      exact hsettled
    · exact h.settled c₀ (hcalls ▸ hc₀)

/-- A call moves on and changes nothing. -/
theorem PoolInv.goto_zero (h : PoolInv w) (hcall : call ∈ w.calls)
    (hsettled : ApplyCall.Settled { call with stage, effect := call.effect }) :
    PoolInv (w.goto call.id stage 0) :=
  h.goto hcall rfl rfl h.users h.nonneg h.conserved (by simp) (by simpa using hsettled)

/-- A row of the log that is for an instance alone does not count. -/
theorem PoolInv.logSystemRedeem {instanceId : ℕ} (h : PoolInv w) :
    PoolInv (w.logSystemRedeemToInstance userId resourceType n instanceId) := by
  have hlogged : ∀ u f (actions : ResourcePoolAction → Bool), actions .systemRedeem = false →
      (w.logSystemRedeemToInstance userId resourceType n instanceId).logged u f actions =
        w.logged u f actions := by
    intro u f actions hactions
    refine (logged_append _ u f actions).trans ?_
    simp [hactions]
  have hgranted : ∀ u f, (w.logSystemRedeemToInstance userId resourceType n instanceId).granted u f =
      w.granted u f := fun u f => hlogged u f _ rfl
  have hconsumed : ∀ u f,
      (w.logSystemRedeemToInstance userId resourceType n instanceId).consumed u f =
        w.consumed u f := fun u f => congrArg Neg.neg (hlogged u f _ rfl)
  refine { h with conserved := fun u f => ?_, attributed := fun u f => ?_ }
  · rw [hgranted, hconsumed]
    exact h.conserved u f
  · rw [hconsumed]
    exact h.attributed u f

/-- A pool that is read exists from then on, and is empty if it is new. -/
theorem PoolInv.getUserResourcePool (h : PoolInv w) : PoolInv (w.getUserResourcePool userId) := by
  have hremaining : ∀ u f, (w.getUserResourcePool userId).remaining u f = w.remaining u f := by
    intro u f
    simp only [PoolWorld.remaining, PoolWorld.getUserResourcePool]
    rw [lookup_upsert (f := id) fun _ => rfl]
    by_cases hu : u = userId
    · subst hu
      cases Keyed.lookup PoolRow.userId u w.pools <;> simp [PoolRow.get_new]
    · rw [if_neg hu]
  refine { h with users := ?_, nonneg := fun u f => ?_, conserved := fun u f => ?_ }
  · exact nodup_upsert (fun _ => rfl) h.users
  · rw [hremaining]
    exact h.nonneg u f
  · rw [hremaining]
    exact h.conserved u f

/-- A call begins, and has changed nothing. -/
theorem PoolInv.apply {instanceId : ℕ} (h : PoolInv w) :
    PoolInv { w with
      calls := w.calls ++ [{ id := w.nextCall, userId, resourceType, amount, instanceId }]
      nextCall := w.nextCall + 1 } where
  users := h.users
  ids := Keyed.nodup_append_singleton h.ids fun call hcall => (h.below call hcall).ne
  below := Keyed.below_concat h.below (Nat.le_succ _) (Nat.lt_succ_self _)
  nonneg := h.nonneg
  conserved := h.conserved
  attributed := by
    intro u f
    refine (h.attributed u f).trans ?_
    simp [PoolWorld.effects]
  settled := by
    intro call hcall
    rcases List.mem_append.mp hcall with hcall | hcall
    · exact h.settled call hcall
    · obtain rfl := List.mem_singleton.mp hcall
      rfl

/-- What a deduction takes, the call has changed. -/
theorem PoolInv.deduct {instanceId : ℕ} (h : PoolInv w) (hcall : call ∈ w.calls)
    (hstage : call.stage = .deducting)
    (hdeduct : w.deductFromResourcePool call.userId call.resourceType call.amount instanceId =
      some (w', true)) : PoolInv (w'.goto call.id .applying (-call.amount.num)) := by
  obtain ⟨field, n, hfield, hn, hpos, henough, hpost⟩ := deductFromResourcePool_spec hdeduct
  have hnum : call.amount.num = n := by rw [wholeNumber_eq_some.mp hn]; rfl
  have hsettled := h.settled call hcall
  rw [ApplyCall.Settled, hstage] at hsettled
  rw [hnum]
  refine h.goto hcall hpost.calls hpost.nextCall (hpost.users h.users) ?_ ?_ ?_ ?_
  · intro u f
    rw [hpost.remaining]
    split
    · rename_i hown
      obtain ⟨rfl, rfl⟩ := hown
      omega
    · simpa using h.nonneg u f
  · intro u f
    rw [hpost.granted, hpost.remaining, hpost.consumed, h.conserved]
    simp [ResourcePoolAction.isGrant]
  · intro u f
    rw [hpost.consumed, hfield]
    simp [eq_comm]
  · exact ⟨field, n, hfield, hn, hpos, by rw [hsettled]; simp⟩

theorem of_callAt {stages : List ApplyStage} (h : w.callAt id stages = some call) :
    call ∈ w.calls ∧ call.id = id ∧ call.stage ∈ stages := by
  obtain ⟨hlookup, hstage⟩ := Option.filter_eq_some_iff.mp h
  obtain ⟨hcall, hid⟩ := Keyed.mem_of_lookup hlookup
  exact ⟨hcall, hid, of_decide_eq_true hstage⟩

/-- The amount of a call that has taken it. -/
theorem PoolInv.taken (h : PoolInv w) (hcall : call ∈ w.calls) (hstage : call.stage = .refunding) :
    ∃ field n, RESOURCE_FIELD_MAP call.resourceType = some field ∧
      wholeNumber call.amount = some n ∧ 0 < n ∧ call.effect = -n := by
  have hsettled := h.settled call hcall
  rwa [ApplyCall.Settled, hstage] at hsettled

/-- With room in the column a refund goes through. -/
theorem PoolInv.exists_refund (h : PoolInv w) (hcall : call ∈ w.calls)
    (hstage : call.stage = .refunding)
    (hroom : ((RESOURCE_FIELD_MAP call.resourceType).all fun field =>
      field.fits (w.remaining call.userId field + call.amount.num) && fitsInt call.amount.num) =
        true) :
    ∃ w', w.addToResourcePool call.userId call.resourceType call.amount .refund = some w' := by
  obtain ⟨field, n, hfield, hn, -, -⟩ := h.taken hcall hstage
  have hnum : call.amount.num = n := by rw [wholeNumber_eq_some.mp hn]; rfl
  rw [hfield, Option.all_some, hnum] at hroom
  simp only [PoolWorld.addToResourcePool, hfield, hn, if_pos hroom]
  exact ⟨_, rfl⟩

/-- What a refund gives back, the call has changed no longer. -/
theorem PoolInv.refund (h : PoolInv w) (hcall : call ∈ w.calls)
    (hstage : call.stage = .refunding)
    (hadd : w.addToResourcePool call.userId call.resourceType call.amount .refund = some w') :
    PoolInv (w'.goto call.id .failed call.amount.num) := by
  obtain ⟨field, n, hfield, hn, hpost⟩ := addToResourcePool_spec hadd
  have hnum : call.amount.num = n := by rw [wholeNumber_eq_some.mp hn]; rfl
  obtain ⟨-, n', -, hn', hpos, heffect⟩ := h.taken hcall hstage
  obtain rfl := Option.some.inj (hn.symm.trans hn')
  rw [hnum]
  refine h.goto hcall hpost.calls hpost.nextCall (hpost.users h.users) ?_ ?_ ?_ ?_
  · intro u f
    rw [hpost.remaining]
    have hnonneg := h.nonneg u f
    split <;> omega
  · intro u f
    rw [hpost.granted, hpost.remaining, hpost.consumed, h.conserved]
    simp [ResourcePoolAction.isGrant]
  · intro u f
    rw [hpost.consumed, hfield]
    simp [eq_comm]
  · simp [ApplyCall.Settled, heffect]

/-- A grant goes through or leaves everything as it is. -/
theorem PoolInv.addToResourcePool (h : PoolInv w) (hgrant : action.isGrant = true)
    (hamount : 0 ≤ amount) :
    PoolInv ((w.addToResourcePool userId resourceType amount action).getD w) := by
  cases hadd : w.addToResourcePool userId resourceType amount action with
  | none => exact h
  | some w' =>
      obtain ⟨field, n, -, hn, hpost⟩ := addToResourcePool_spec hadd
      rw [wholeNumber_eq_some.mp hn] at hamount
      exact h.grant hpost hgrant (by exact_mod_cast hamount)

theorem codeValue_nonneg {value : ℤ} (h : value ∈ CODE_VALUES resourceType) : 0 ≤ value := by
  cases resourceType <;> simp only [CODE_VALUES, List.mem_cons, List.not_mem_nil, or_false] at h <;>
    omega

/-- Every statement keeps the invariant, if no grant is negative and refunds go through. -/
theorem PoolInv.step (h : PoolInv w) (hok : soundStep w event = true)
    (hs : poolStep w event = some w') : PoolInv w' := by
  cases event with
  | getUserResourcePool userId =>
      obtain rfl := Option.some.inj hs
      exact h.getUserResourcePool
  | grant userId resourceType amount action =>
      simp only [poolStep] at hs
      split at hs
      · rename_i haction
        obtain rfl := Option.some.inj hs
        refine h.addToResourcePool ?_ (of_decide_eq_true hok)
        cases action <;> simp at haction <;> rfl
      · cases hs
  | performCheckin userId resourceType i =>
      obtain ⟨value, hvalue, rfl⟩ := Option.map_eq_some_iff.mp hs
      refine h.addToResourcePool rfl ?_
      exact_mod_cast codeValue_nonneg (List.mem_of_getElem? hvalue)
  | drawPrize userId resourceType value =>
      obtain rfl := Option.some.inj hs
      have hvalue : 0 ≤ value := of_decide_eq_true hok
      exact h.addToResourcePool rfl (by exact_mod_cast hvalue)
  | logSystemRedeemToInstance userId resourceType amount instanceId =>
      obtain rfl := Option.some.inj hs
      exact h.logSystemRedeem
  | apply userId resourceType amount instanceId =>
      obtain rfl := Option.some.inj hs
      exact h.apply
  | deduct id ok =>
      obtain ⟨call, hcallAt, rfl⟩ := Option.map_eq_some_iff.mp hs
      obtain ⟨hcall, rfl, hstage⟩ := of_callAt hcallAt
      simp only [List.mem_singleton] at hstage
      split
      · rename_i hdeduct
        cases ok with
        | true => exact h.deduct hcall hstage hdeduct
        | false => cases hdeduct
      · have hsettled := h.settled call hcall
        rw [ApplyCall.Settled, hstage] at hsettled
        exact h.goto_zero hcall hsettled
  | applyToInstance id ok =>
      obtain ⟨call, hcallAt, rfl⟩ := Option.map_eq_some_iff.mp hs
      obtain ⟨hcall, rfl, hstage⟩ := of_callAt hcallAt
      simp only [List.mem_singleton] at hstage
      have hsettled := h.settled call hcall
      rw [ApplyCall.Settled, hstage] at hsettled
      refine h.goto_zero hcall ?_
      cases ok with
      | true => trivial
      | false => exact hsettled
  | refund id ok =>
      obtain ⟨call, hcallAt, rfl⟩ := Option.map_eq_some_iff.mp hs
      obtain ⟨hcall, rfl, hstage⟩ := of_callAt hcallAt
      simp only [List.mem_singleton] at hstage
      rw [soundStep, Keyed.lookup_of_mem h.ids hcall] at hok
      simp only [Option.all_some, Bool.and_eq_true] at hok
      obtain ⟨rfl, hroom⟩ := hok
      obtain ⟨w', hadd⟩ := h.exists_refund hcall hstage hroom
      simp only [if_true, hadd]
      exact h.refund hcall hstage hadd
  | stop id =>
      obtain ⟨call, hcallAt, rfl⟩ := Option.map_eq_some_iff.mp hs
      obtain ⟨hcall, rfl, hstage⟩ := of_callAt hcallAt
      rw [soundStep, Keyed.lookup_of_mem h.ids hcall] at hok
      have hdeducting : call.stage = .deducting := by
        cases hcase : call.stage <;> simp [hcase] at hok hstage ⊢
      have hsettled := h.settled call hcall
      rw [ApplyCall.Settled, hdeducting] at hsettled
      exact h.goto_zero hcall hsettled

end Invariant

theorem poolInv_start : PoolInv {} where
  users := List.nodup_nil
  ids := List.nodup_nil
  below := by simp
  nonneg := fun _ _ => le_rfl
  conserved := fun _ _ => rfl
  attributed := fun _ _ => rfl
  settled := by simp

/-- In every run in which no grant is negative and what a failed application took is given back,
the pools keep what is promised. -/
theorem pool_safe {w : PoolWorld}
    (hrun : Machine.Reach poolStep (fun w event => soundStep w event = true) {} w) : PoolSafe w :=
  (hrun.invariant poolInv_start fun h hok hs => h.step hok hs).safe

/-- Two applications of what is there for one: the second finds too little, the first fails at the
instance and is refunded, a third goes through. -/
theorem pool_safe_raced :
    ∃ w : PoolWorld, Machine.Reach poolStep (fun w event => soundStep w event = true) {} w ∧
      PoolSafe w ∧ w.remaining 1 .cpu = 1 ∧ w.granted 1 .cpu = 8 ∧ w.consumed 1 .cpu = 7 := by
  let events : List PoolEvent :=
    [.performCheckin 1 .c 3, .drawPrize 1 .c 3, .apply 1 .c 6 70, .apply 1 .c 6 71,
      .apply 1 .c 7 72, .deduct 0 true, .deduct 1 true, .applyToInstance 0 false, .refund 0 true,
      .deduct 2 true, .applyToInstance 2 true]
  have hends : (Machine.exec (Machine.guarded poolStep soundStep) {} events).any (fun w =>
      decide (w.remaining 1 .cpu = 1 ∧ w.granted 1 .cpu = 8 ∧ w.consumed 1 .cpu = 7)) = true := by
    decide
  obtain ⟨w, hexec, hfacts⟩ := Option.any_eq_true _ _ |>.mp hends
  have hrun := Machine.reach_of_exec_guarded hexec
  exact ⟨w, hrun, pool_safe hrun, of_decide_eq_true hfacts⟩

/-- A prize of less than nothing leaves a pool below zero; and an application that fails, and whose
refund meets an error, leaves the pool with less than before. -/
theorem pool_negative :
    (∃ w : PoolWorld, Machine.Reach poolStep Machine.free {} w ∧ ¬PoolSafe w ∧
      w.pools = [{ userId := 1, cpu := -5 }]) ∧
    ∃ w : PoolWorld, Machine.Reach poolStep Machine.free {} w ∧ ¬PoolSafe w ∧
      w.pools = [{ userId := 1, cpu := 2 }] := by
  constructor
  · have hexec : Machine.exec poolStep {} [.drawPrize 1 .c (-5)] = some
        { pools := [{ userId := 1, cpu := -5 }]
          logs := [{ userId := 1, action := .lottery, resourceType := .c, amount := -5 }] } := by
      decide
    refine ⟨_, Machine.reach_of_exec hexec, fun hsafe => ?_, rfl⟩
    have hnonneg := hsafe.nonneg { userId := 1, cpu := -5 } (List.mem_singleton_self _) .cpu
    exact absurd hnonneg (by decide)
  · have hends : (Machine.exec poolStep {}
        [.performCheckin 1 .c 3, .apply 1 .c 3 70, .deduct 0 true, .applyToInstance 0 false,
          .refund 0 false]).any (fun w =>
        decide (w.pools = [{ userId := 1, cpu := 2 }] ∧ w.calls =
          [{ id := 0, userId := 1, resourceType := .c, amount := 3, instanceId := 70
             stage := .failed, effect := -3 }])) = true := by decide
    obtain ⟨w, hexec, hfacts⟩ := Option.any_eq_true _ _ |>.mp hends
    obtain ⟨hpools, hcalls⟩ := of_decide_eq_true hfacts
    refine ⟨w, Machine.reach_of_exec hexec, fun hsafe => ?_, hpools⟩
    have hunchanged := hsafe.unchanged _ (hcalls ▸ List.mem_singleton_self _) rfl
    exact absurd hunchanged (by decide)

end Incudal
