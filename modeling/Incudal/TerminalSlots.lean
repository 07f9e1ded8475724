/-
# `TerminalSlots` — how many terminals are open for a user and for an instance

`server/src/lib/terminal-proxy.ts` and the part of `server/src/routes/terminal.ts` that
opens a terminal.  A session counts once Incus has answered, which is some time after the limits
were checked; so the check takes a slot in the same step, and the call gives it back when it
ends, whether a session came of it or not.

In every run no user and no instance has more sessions than its limit
(`terminals_limited`), and the slots that are taken are those of the calls under way
(`slots_returned`).
-/
import Incudal.Lib.Machine
import Incudal.Lib.Tally

namespace Incudal

/-! ## The proxy -/

structure TerminalLimits where
  maxPerUser : ℕ
  maxPerInstance : ℕ

def TERMINAL_LIMITS : TerminalLimits := { maxPerUser := 5, maxPerInstance := 3 }

/-- `TERMINAL_CONFIG`, in milliseconds. -/
def TERMINAL_HEARTBEAT_INTERVAL : ℕ := 25 * 1000

def TERMINAL_IDLE_TIMEOUT : ℕ := 12 * 60 * 60 * 1000

/-- A session; `sessionId` is that of the login. -/
structure TerminalSession where
  instanceId : ℕ
  userId : ℕ
  sessionId : Option String
  lastActivity : ℕ
deriving DecidableEq, Repr

/-- The variables of the module. -/
structure TerminalProxy where
  activeSessions : List (String × TerminalSession) := []
  pendingSlotsByUser : List (ℕ × ℕ) := []
  pendingSlotsByInstance : List (ℕ × ℕ) := []
deriving DecidableEq, Repr

structure TerminalStats where
  total : ℕ
  byInstance : List (ℕ × ℕ)
  byUser : List (ℕ × ℕ)
deriving DecidableEq, Repr

/-- The limit that is reached. -/
inductive SlotReason
  | user
  | ofInstance
deriving DecidableEq, Repr

namespace TerminalProxy

def getActiveSessionStats (p : TerminalProxy) : TerminalStats where
  total := p.activeSessions.length
  byInstance := p.activeSessions.foldl (fun m e => Tally.increment e.2.instanceId m) []
  byUser := p.activeSessions.foldl (fun m e => Tally.increment e.2.userId m) []

def reserveTerminalSlot (p : TerminalProxy) (userId instanceId : ℕ) (limits : TerminalLimits) :
    Except SlotReason TerminalProxy :=
  let stats := p.getActiveSessionStats
  let userCount := Tally.count userId stats.byUser + Tally.count userId p.pendingSlotsByUser
  if limits.maxPerUser ≤ userCount then .error .user
  else
    let instanceCount :=
      Tally.count instanceId stats.byInstance + Tally.count instanceId p.pendingSlotsByInstance
    if limits.maxPerInstance ≤ instanceCount then .error .ofInstance
    else
      .ok { p with
        pendingSlotsByUser := Tally.increment userId p.pendingSlotsByUser
        pendingSlotsByInstance := Tally.increment instanceId p.pendingSlotsByInstance }

def releaseTerminalSlot (p : TerminalProxy) (userId instanceId : ℕ) : TerminalProxy :=
  { p with
    pendingSlotsByUser := Tally.decrement userId p.pendingSlotsByUser
    pendingSlotsByInstance := Tally.decrement instanceId p.pendingSlotsByInstance }

/-- The end of `createTerminalSession`, once both sockets of Incus are open. -/
def storeSession (p : TerminalProxy) (id : String) (session : TerminalSession) : TerminalProxy :=
  { p with activeSessions := InsertionMap.set id session p.activeSessions }

/-- A message or a pong. -/
def touch (p : TerminalProxy) (id : String) (now : ℕ) : TerminalProxy :=
  { p with
    activeSessions :=
      Keyed.modify Prod.fst id (fun e => (e.1, { e.2 with lastActivity := now })) p.activeSessions }

def closeTerminalSession (p : TerminalProxy) (id : String) : TerminalProxy :=
  { p with activeSessions := Keyed.erase Prod.fst id p.activeSessions }

/-- The sessions are collected first, and then closed one after the other. -/
def closeSessionsWhere (p : TerminalProxy) (q : TerminalSession → Bool) : TerminalProxy × ℕ :=
  let sessionsToClose := (p.activeSessions.filter fun e => q e.2).map Prod.fst
  (sessionsToClose.foldl closeTerminalSession p, sessionsToClose.length)

def closeInstanceSessions (p : TerminalProxy) (instanceId : ℕ) : TerminalProxy × ℕ :=
  p.closeSessionsWhere fun s => s.instanceId == instanceId

def closeUserSessions (p : TerminalProxy) (userId : ℕ) : TerminalProxy × ℕ :=
  p.closeSessionsWhere fun s => s.userId == userId

def closeSessionTerminalSessions (p : TerminalProxy) (sessionId : String) : TerminalProxy × ℕ :=
  p.closeSessionsWhere fun s => s.sessionId == some sessionId

def cleanupStaleSessions (p : TerminalProxy) (now : ℕ) : TerminalProxy × ℕ :=
  let cleanupThreshold := TERMINAL_IDLE_TIMEOUT + TERMINAL_HEARTBEAT_INTERVAL * 2
  p.closeSessionsWhere fun s => decide (cleanupThreshold < now - s.lastActivity)

def closeAllSessions (p : TerminalProxy) : TerminalProxy × ℕ := p.closeSessionsWhere fun _ => true

end TerminalProxy

/-! ## The calls that open terminals -/

/-- Before the session is stored, after it, and at the end. -/
inductive OpeningStage
  | reserved | registered | released
deriving DecidableEq, Repr

/-- A call that has taken a slot; `sessionId` is that of its ticket. -/
structure TerminalOpening where
  userId : ℕ
  instanceId : ℕ
  sessionId : Option String
  stage : OpeningStage
deriving DecidableEq, Repr

structure TerminalWorld where
  proxy : TerminalProxy := {}
  clock : ℕ := 0
  openings : List TerminalOpening := []

inductive TerminalEvent
  | reserve (userId instanceId : ℕ) (sessionId : Option String)
  /-- Incus has answered -/
  | register (j : ℕ) (id : String)
  /-- the `finally` of the call, after a session or without one -/
  | release (j : ℕ)
  | touch (id : String)
  /-- a closed or dead client, or Incus unreachable -/
  | close (id : String)
  | closeInstance (instanceId : ℕ)
  | closeUser (userId : ℕ)
  | closeSession (sessionId : String)
  | cleanup
  | closeAll
  | tick (now : ℕ)
deriving DecidableEq, Repr

namespace TerminalWorld

def setStage (w : TerminalWorld) (j : ℕ) (opening : TerminalOpening) (stage : OpeningStage) :
    TerminalWorld :=
  { w with openings := w.openings.set j { opening with stage } }

end TerminalWorld

/-- A step of a call up to its next wait, or of whatever closes sessions. -/
def terminalStep (limits : TerminalLimits) (w : TerminalWorld) :
    TerminalEvent → Option TerminalWorld
  | .reserve userId instanceId sessionId =>
      match w.proxy.reserveTerminalSlot userId instanceId limits with
      | .ok proxy =>
          some { w with
            proxy
            openings := w.openings ++ [{ userId, instanceId, sessionId, stage := .reserved }] }
      | .error _ => some w
  | .register j id =>
      match w.openings[j]? with
      | some opening =>
          if opening.stage = .reserved then
            some { w.setStage j opening .registered with
              proxy := w.proxy.storeSession id
                { instanceId := opening.instanceId, userId := opening.userId
                  sessionId := opening.sessionId, lastActivity := w.clock } }
          else none
      | none => none
  | .release j =>
      match w.openings[j]? with
      | some opening =>
          if opening.stage = .released then none
          else
            some { w.setStage j opening .released with
              proxy := w.proxy.releaseTerminalSlot opening.userId opening.instanceId }
      | none => none
  | .touch id => some { w with proxy := w.proxy.touch id w.clock }
  | .close id => some { w with proxy := w.proxy.closeTerminalSession id }
  | .closeInstance instanceId =>
      some { w with proxy := (w.proxy.closeInstanceSessions instanceId).1 }
  | .closeUser userId => some { w with proxy := (w.proxy.closeUserSessions userId).1 }
  | .closeSession sessionId =>
      some { w with proxy := (w.proxy.closeSessionTerminalSessions sessionId).1 }
  | .cleanup => some { w with proxy := (w.proxy.cleanupStaleSessions w.clock).1 }
  | .closeAll => some { w with proxy := w.proxy.closeAllSessions.1 }
  | .tick now => if w.clock ≤ now then some { w with clock := now } else none

/-! ## Counting for users and for instances -/

/-- The limit, the counters and the counted owner for one of the two reasons to refuse. -/
def TerminalLimits.limit (limits : TerminalLimits) : SlotReason → ℕ
  | .user => limits.maxPerUser
  | .ofInstance => limits.maxPerInstance

def slotOwner (userId instanceId : ℕ) : SlotReason → ℕ
  | .user => userId
  | .ofInstance => instanceId

def TerminalSession.owner (session : TerminalSession) : SlotReason → ℕ :=
  slotOwner session.userId session.instanceId

def TerminalOpening.owner (opening : TerminalOpening) : SlotReason → ℕ :=
  slotOwner opening.userId opening.instanceId

def TerminalProxy.pending (p : TerminalProxy) : SlotReason → List (ℕ × ℕ)
  | .user => p.pendingSlotsByUser
  | .ofInstance => p.pendingSlotsByInstance

/-- How many sessions there are of a user, or of an instance. -/
def TerminalProxy.active (p : TerminalProxy) (reason : SlotReason) (k : ℕ) : ℕ :=
  p.activeSessions.countP fun e => decide (e.2.owner reason = k)

namespace TerminalWorld

/-- How many calls are at a stage. -/
def openingsAt (w : TerminalWorld) (at_ : OpeningStage → Bool) (reason : SlotReason) (k : ℕ) : ℕ :=
  w.openings.countP fun o => at_ o.stage && decide (o.owner reason = k)

/-- The calls that have not ended. -/
def underWay (w : TerminalWorld) : SlotReason → ℕ → ℕ := w.openingsAt (· != .released)

/-- The calls whose session is still to come. -/
def waiting (w : TerminalWorld) : SlotReason → ℕ → ℕ := w.openingsAt (· == .reserved)

end TerminalWorld

section Counts

variable {limits : TerminalLimits} {p p' : TerminalProxy} {w : TerminalWorld}
variable {userId instanceId : ℕ} {reason : SlotReason} {k j : ℕ} {id : String}
variable {session : TerminalSession} {opening : TerminalOpening} {stage : OpeningStage}
variable {at_ : OpeningStage → Bool}

theorem count_byUser : Tally.count k p.getActiveSessionStats.byUser = p.active .user k := by
  show Tally.count k (p.activeSessions.foldl _ []) = _
  rw [Tally.count_foldl_increment]
  exact Nat.zero_add _

theorem count_byInstance :
    Tally.count k p.getActiveSessionStats.byInstance = p.active .ofInstance k := by
  show Tally.count k (p.activeSessions.foldl _ []) = _
  rw [Tally.count_foldl_increment]
  exact Nat.zero_add _

/-- A slot is taken if and only if there is room for the user and for the instance. -/
theorem reserveTerminalSlot_isOk :
    (∃ p', p.reserveTerminalSlot userId instanceId limits = .ok p') ↔
      ∀ reason, p.active reason (slotOwner userId instanceId reason) +
        Tally.count (slotOwner userId instanceId reason) (p.pending reason) <
          limits.limit reason := by
  simp only [TerminalProxy.reserveTerminalSlot, count_byUser, count_byInstance]
  constructor
  · rintro ⟨p', hok⟩ reason
    split at hok
    · cases hok
    · rename_i huser
      split at hok
      · cases hok
      · rename_i hinstance
        cases reason with
        | user => exact Nat.lt_of_not_le huser
        | ofInstance => exact Nat.lt_of_not_le hinstance
  · intro hroom
    have huser : p.active .user userId + Tally.count userId p.pendingSlotsByUser <
        limits.maxPerUser := hroom .user
    have hinstance : p.active .ofInstance instanceId +
        Tally.count instanceId p.pendingSlotsByInstance < limits.maxPerInstance := hroom .ofInstance
    rw [if_neg (Nat.not_le_of_lt huser), if_neg (Nat.not_le_of_lt hinstance)]
    exact ⟨_, rfl⟩

/-- What is written with it. -/
theorem reserveTerminalSlot_ok (h : p.reserveTerminalSlot userId instanceId limits = .ok p') :
    p'.activeSessions = p.activeSessions ∧ ∀ reason, p'.pending reason =
      Tally.increment (slotOwner userId instanceId reason) (p.pending reason) := by
  unfold TerminalProxy.reserveTerminalSlot at h
  simp only at h
  split at h
  · cases h
  · split at h
    · cases h
    · obtain rfl := Except.ok.inj h
      refine ⟨rfl, fun reason => ?_⟩
      cases reason <;> rfl

theorem pending_releaseTerminalSlot :
    (p.releaseTerminalSlot userId instanceId).pending reason =
      Tally.decrement (slotOwner userId instanceId reason) (p.pending reason) := by
  cases reason <;> rfl

/-- Storing a session adds at most the session. -/
theorem active_storeSession (hn : (p.activeSessions.map Prod.fst).Nodup) (id : String)
    (session : TerminalSession) (reason : SlotReason) (k : ℕ) :
    (p.storeSession id session).active reason k ≤
      p.active reason k + if session.owner reason = k then 1 else 0 := by
  simp only [TerminalProxy.active, TerminalProxy.storeSession, InsertionMap.set]
  split
  · rename_i hthere
    obtain ⟨old, hold⟩ := Option.isSome_iff_exists.mp hthere
    have hmem := (InsertionMap.mem_iff_get hn).mpr hold
    obtain ⟨before, after, hsplit, hmodify, -⟩ := Keyed.split_of_mem hn hmem
    rw [hmodify, hsplit]
    simp only [List.countP_append, List.countP_cons, decide_eq_true_eq]
    split <;> split <;> omega
  · rw [List.countP_append, List.countP_singleton]
    simp only [decide_eq_true_eq]
    exact le_rfl

theorem active_touch {now : ℕ} : (p.touch id now).active reason k = p.active reason k := by
  simp only [TerminalProxy.active, TerminalProxy.touch, Keyed.modify, List.countP_map]
  refine List.countP_congr fun e _ => ?_
  simp only [Function.comp_apply]
  split <;> exact Iff.rfl

/-- The collected sessions are those that are closed. -/
theorem closeSessionsWhere_eq (hn : (p.activeSessions.map Prod.fst).Nodup)
    (q : TerminalSession → Bool) :
    p.closeSessionsWhere q =
      ({ p with activeSessions := p.activeSessions.filter fun e => !q e.2 },
        p.activeSessions.countP fun e => q e.2) := by
  have hclose : ∀ ids : List String, ids.foldl TerminalProxy.closeTerminalSession p =
      { p with activeSessions := p.activeSessions.filter fun e => decide (e.1 ∉ ids) } := by
    intro ids
    induction ids generalizing p with
    | nil => simp
    | cons id ids ih =>
        have hn' : ((p.closeTerminalSession id).activeSessions.map Prod.fst).Nodup :=
          Keyed.nodup_erase hn
        rw [List.foldl_cons, ih hn']
        simp only [TerminalProxy.closeTerminalSession, Keyed.erase, List.filter_filter]
        congr 1
        refine List.filter_congr fun e _ => ?_
        rw [← Bool.decide_and]
        exact decide_eq_decide.mpr (by rw [List.mem_cons, not_or, and_comm])
  have hfilter : p.activeSessions.filter (fun e =>
      decide (e.1 ∉ (p.activeSessions.filter fun e => q e.2).map Prod.fst)) =
        p.activeSessions.filter fun e => !q e.2 := by
    refine List.filter_congr fun e he => ?_
    have hiff : e.1 ∈ (p.activeSessions.filter fun e => q e.2).map Prod.fst ↔ q e.2 = true := by
      rw [List.mem_map]
      constructor
      · rintro ⟨e', he', heq⟩
        obtain ⟨hmem, hq⟩ := List.mem_filter.mp he'
        rwa [List.inj_on_of_nodup_map hn hmem he heq] at hq
      · exact fun hq => ⟨e, List.mem_filter.mpr ⟨he, hq⟩, rfl⟩
    cases hq : q e.2 <;> simp [hiff, hq]
  rw [TerminalProxy.closeSessionsWhere, hclose, hfilter, List.length_map,
    ← List.countP_eq_length_filter]

/-- A call that moves on is counted where it is then. -/
theorem openingsAt_setStage (stage : OpeningStage) (at_ : OpeningStage → Bool)
    (reason : SlotReason) (k : ℕ) (hj : w.openings[j]? = some opening) :
    (w.setStage j opening stage).openingsAt at_ reason k +
        (if at_ opening.stage = true ∧ opening.owner reason = k then 1 else 0) =
      w.openingsAt at_ reason k +
        if at_ stage = true ∧ opening.owner reason = k then 1 else 0 := by
  have hset := Tally.countP_set_add (b := { opening with stage := stage })
    (p := fun o => at_ o.stage && decide (o.owner reason = k)) hj
  simp only [Bool.and_eq_true, decide_eq_true_eq] at hset
  exact hset

end Counts

/-! ## Every run -/

/-- The counters are those of the calls under way, and the sessions leave room for the ones that
are still to come. -/
structure SlotInv (limits : TerminalLimits) (w : TerminalWorld) : Prop where
  sessions : (w.proxy.activeSessions.map Prod.fst).Nodup
  tidy : ∀ reason, Tally.Tidy (w.proxy.pending reason)
  counted : ∀ reason k, Tally.count k (w.proxy.pending reason) = w.underWay reason k
  room : ∀ reason k, w.proxy.active reason k + w.waiting reason k ≤ limits.limit reason

section Runs

variable {limits : TerminalLimits} {w w' : TerminalWorld} {event : TerminalEvent}

theorem waiting_le_underWay (reason : SlotReason) (k : ℕ) :
    w.waiting reason k ≤ w.underWay reason k := by
  refine List.countP_mono_left fun o _ ho => ?_
  simp only [Bool.and_eq_true, beq_iff_eq, bne_iff_ne, ne_eq] at ho ⊢
  exact ⟨by rw [ho.1]; decide, ho.2⟩

namespace SlotInv

theorem start : SlotInv limits {} where
  sessions := List.nodup_nil
  tidy reason := by cases reason <;> exact .nil
  counted reason k := by cases reason <;> rfl
  room reason k := Nat.zero_le _

theorem reserve (h : SlotInv limits w) {userId instanceId : ℕ} {sessionId : Option String}
    {proxy : TerminalProxy}
    (hok : w.proxy.reserveTerminalSlot userId instanceId limits = .ok proxy) :
    SlotInv limits
      { w with
        proxy
        openings := w.openings ++ [{ userId, instanceId, sessionId, stage := .reserved }] } := by
  obtain ⟨hsessions, hpending⟩ := reserveTerminalSlot_ok hok
  have hroom := reserveTerminalSlot_isOk.mp ⟨proxy, hok⟩
  have hnew (at_ : OpeningStage → Bool) (reason : SlotReason) (k : ℕ) (hat : at_ .reserved = true) :
      TerminalWorld.openingsAt
        { w with
          proxy
          openings := w.openings ++ [{ userId, instanceId, sessionId, stage := .reserved }] }
        at_ reason k =
      w.openingsAt at_ reason k + if slotOwner userId instanceId reason = k then 1 else 0 := by
    simp only [TerminalWorld.openingsAt, List.countP_append, List.countP_singleton, hat,
      Bool.true_and, decide_eq_true_eq]
    rfl
  constructor
  · exact hsessions ▸ h.sessions
  · intro reason
    rw [hpending]
    exact (h.tidy reason).increment
  · intro reason k
    show _ = TerminalWorld.openingsAt _ (· != .released) reason k
    rw [hpending, Tally.count_increment, h.counted, hnew _ _ _ rfl]
    simp only [TerminalWorld.underWay, eq_comm (a := k)]
  · intro reason k
    show proxy.active reason k + TerminalWorld.openingsAt _ (· == .reserved) reason k ≤ _
    rw [hnew _ _ _ rfl]
    simp only [TerminalProxy.active, hsessions]
    split
    · -- the room was checked with the calls under way, whose sessions are still to come or not
      rename_i hk
      have hlt := hroom reason
      rw [h.counted, hk] at hlt
      have hle := waiting_le_underWay (w := w) reason k
      simp only [TerminalProxy.active, TerminalWorld.waiting] at hlt hle
      omega
    · exact h.room reason k

theorem register (h : SlotInv limits w) {j : ℕ} {id : String} {opening : TerminalOpening}
    (hj : w.openings[j]? = some opening) (hstage : opening.stage = .reserved) :
    SlotInv limits
      { w.setStage j opening .registered with
        proxy := w.proxy.storeSession id
          { instanceId := opening.instanceId, userId := opening.userId
            sessionId := opening.sessionId, lastActivity := w.clock } } where
  sessions := InsertionMap.nodup_set h.sessions
  tidy := h.tidy
  counted reason k := by
    have hmoved := openingsAt_setStage .registered (· != .released) reason k hj
    rw [hstage] at hmoved
    exact (h.counted reason k).trans (Nat.add_right_cancel hmoved).symm
  room reason k := by
    have hmoved := openingsAt_setStage .registered (· == .reserved) reason k hj
    have hactive := active_storeSession h.sessions id
      { instanceId := opening.instanceId, userId := opening.userId
        sessionId := opening.sessionId, lastActivity := w.clock } reason k
    have howner : TerminalSession.owner
        { instanceId := opening.instanceId, userId := opening.userId
          sessionId := opening.sessionId, lastActivity := w.clock } = opening.owner := rfl
    have hroom := h.room reason k
    rw [hstage] at hmoved
    rw [howner] at hactive
    simp only [beq_self_eq_true, true_and, Bool.false_eq_true, false_and, if_false,
      show (OpeningStage.registered == .reserved) = false from rfl] at hmoved
    simp only [TerminalWorld.waiting] at hroom
    show (w.proxy.storeSession id _).active reason k +
      (w.setStage j opening .registered).openingsAt (· == .reserved) reason k ≤ _
    omega

theorem release (h : SlotInv limits w) {j : ℕ} {opening : TerminalOpening}
    (hj : w.openings[j]? = some opening) (hstage : opening.stage ≠ .released) :
    SlotInv limits
      { w.setStage j opening .released with
        proxy := w.proxy.releaseTerminalSlot opening.userId opening.instanceId } where
  sessions := h.sessions
  tidy reason := by
    rw [pending_releaseTerminalSlot]
    exact (h.tidy reason).decrement
  counted reason k := by
    have hmoved := openingsAt_setStage .released (· != .released) reason k hj
    have hout : (opening.stage != .released) = true := bne_iff_ne.mpr hstage
    simp only [hout, true_and, bne_self_eq_false, Bool.false_eq_true, false_and, if_false]
      at hmoved
    rw [pending_releaseTerminalSlot, Tally.count_decrement (h.tidy reason).nodup, h.counted]
    show w.underWay reason k - _ =
      (w.setStage j opening .released).openingsAt (· != .released) reason k
    have howner : opening.owner reason = slotOwner opening.userId opening.instanceId reason := rfl
    simp only [TerminalWorld.underWay, ← howner, eq_comm (a := k)]
    omega
  room reason k := by
    have hmoved := openingsAt_setStage .released (· == .reserved) reason k hj
    have hroom := h.room reason k
    simp only [show (OpeningStage.released == .reserved) = false from rfl, Bool.false_eq_true,
      false_and, if_false] at hmoved
    simp only [TerminalWorld.waiting] at hroom
    show w.proxy.active reason k +
      (w.setStage j opening .released).openingsAt (· == .reserved) reason k ≤ _
    omega

theorem closeWhere (h : SlotInv limits w) (q : TerminalSession → Bool) :
    SlotInv limits { w with proxy := (w.proxy.closeSessionsWhere q).1 } := by
  rw [closeSessionsWhere_eq h.sessions]
  refine ⟨?_, h.tidy, h.counted, fun reason k =>
    le_trans (Nat.add_le_add_right ?_ _) (h.room reason k)⟩
  · exact h.sessions.sublist (List.filter_sublist.map _)
  · exact List.filter_sublist.countP_le

theorem close (h : SlotInv limits w) (id : String) :
    SlotInv limits { w with proxy := w.proxy.closeTerminalSession id } where
  sessions := Keyed.nodup_erase h.sessions
  tidy := h.tidy
  counted := h.counted
  room reason k := (Nat.add_le_add_right List.filter_sublist.countP_le _).trans (h.room reason k)

theorem touch (h : SlotInv limits w) (id : String) (now : ℕ) :
    SlotInv limits { w with proxy := w.proxy.touch id now } where
  sessions := by
    have hkeys : (w.proxy.touch id now).activeSessions.map Prod.fst =
        w.proxy.activeSessions.map Prod.fst := Keyed.map_key_modify fun _ => rfl
    exact hkeys ▸ h.sessions
  tidy := h.tidy
  counted := h.counted
  room reason k := by
    show (w.proxy.touch id now).active reason k + _ ≤ _
    rw [active_touch]
    exact h.room reason k

theorem step (h : SlotInv limits w) (hstep : terminalStep limits w event = some w') :
    SlotInv limits w' := by
  cases event with
  | reserve userId instanceId sessionId =>
      simp only [terminalStep] at hstep
      split at hstep
      · rename_i hok
        exact Option.some.inj hstep ▸ h.reserve hok
      · exact Option.some.inj hstep ▸ h
  | register j id =>
      simp only [terminalStep] at hstep
      split at hstep
      · rename_i hj
        split at hstep
        · rename_i hstage
          exact Option.some.inj hstep ▸ h.register hj hstage
        · cases hstep
      · cases hstep
  | release j =>
      simp only [terminalStep] at hstep
      split at hstep
      · rename_i hj
        split at hstep
        · cases hstep
        · rename_i hstage
          exact Option.some.inj hstep ▸ h.release hj hstage
      · cases hstep
  | touch id => exact Option.some.inj hstep ▸ h.touch id w.clock
  | close id => exact Option.some.inj hstep ▸ h.close id
  | closeInstance _ | closeUser _ | closeSession _ | cleanup | closeAll =>
      exact Option.some.inj hstep ▸ h.closeWhere _
  | tick now =>
      simp only [terminalStep] at hstep
      split at hstep
      · exact Option.some.inj hstep ▸ ⟨h.sessions, h.tidy, h.counted, h.room⟩
      · cases hstep

end SlotInv

theorem slotInv_of_reach (h : Machine.Reach (terminalStep limits) Machine.free {} w) :
    SlotInv limits w :=
  h.invariant (P := SlotInv limits) .start fun hinv _ hs => hinv.step hs

/-- Nobody has more terminals than the limit, and no instance has. -/
theorem terminals_limited (h : Machine.Reach (terminalStep limits) Machine.free {} w)
    (reason : SlotReason) (k : ℕ) : w.proxy.active reason k ≤ limits.limit reason :=
  (Nat.le_add_right _ _).trans ((slotInv_of_reach h).room reason k)

/-- The counters have an entry for whom a call is under way for, and no other; so a call is refused
only for sessions that are open and calls that have not ended. -/
theorem slots_returned (h : Machine.Reach (terminalStep limits) Machine.free {} w) :
    (∀ reason k, InsertionMap.get k (w.proxy.pending reason) =
      if w.underWay reason k = 0 then none else some (w.underWay reason k)) ∧
    ∀ userId instanceId, (∃ p', w.proxy.reserveTerminalSlot userId instanceId limits = .ok p') ↔
      ∀ reason, w.proxy.active reason (slotOwner userId instanceId reason) +
        w.underWay reason (slotOwner userId instanceId reason) < limits.limit reason := by
  have hinv := slotInv_of_reach h
  refine ⟨fun reason k => ?_, fun userId instanceId => ?_⟩
  · rw [(hinv.tidy reason).get_eq, hinv.counted]
  · rw [reserveTerminalSlot_isOk]
    simp only [hinv.counted]

end Runs

/-- Two tabs of one user on one machine: the first is open, the second waits for Incus, a third is
refused, and the first call has given its slot back. -/
def terminalTabs : List TerminalEvent :=
  [.reserve 1 7 none, .register 0 "term_1", .release 0, .reserve 1 7 none, .tick 5,
    .reserve 1 7 none]

def tabLimits : TerminalLimits := { maxPerUser := 2, maxPerInstance := 2 }

theorem terminals_limited_tabs : ∃ w, Machine.Reach (terminalStep tabLimits) Machine.free {} w ∧
    w.proxy.active .user 1 = 1 ∧ w.openings.length = 2 ∧ w.proxy.active .user 1 ≤ 2 := by
  have hview : (Machine.exec (terminalStep tabLimits) {} terminalTabs).map
      (fun w => (w.proxy.active .user 1, w.openings.length)) = some (1, 2) := by
    decide
  obtain ⟨w, hw, hviews⟩ := Option.map_eq_some_iff.mp hview
  obtain ⟨hactive, hopenings⟩ := Prod.mk.inj hviews
  have hrun := Machine.reach_of_exec hw
  exact ⟨w, hrun, hactive, hopenings, terminals_limited hrun .user 1⟩

theorem slots_returned_tabs : ∃ w, Machine.Reach (terminalStep tabLimits) Machine.free {} w ∧
    w.underWay .user 1 = 1 ∧ InsertionMap.get 1 w.proxy.pendingSlotsByUser = some 1 := by
  have hview : (Machine.exec (terminalStep tabLimits) {} terminalTabs).map
      (fun w => w.underWay .user 1) = some 1 := by
    decide
  obtain ⟨w, hw, hview⟩ := Option.map_eq_some_iff.mp hview
  have hrun := Machine.reach_of_exec hw
  refine ⟨w, hrun, hview, ?_⟩
  have hget := (slots_returned hrun).1 .user 1
  rw [hview] at hget
  exact hget

end Incudal
