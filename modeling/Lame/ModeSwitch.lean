/-
  Lame/ModeSwitch.lean
  ====================
  **What a declared mode switch says about the robot.**

  An acknowledgement carries neither the mode it acknowledges nor a number, and the
  window remembers it in one flag.  So a success rests on some acknowledgement that
  arrived since the connection thread was started, and that acknowledgement on some
  switch request that the robot handled; but an acknowledgement that was under way
  before the start counts as well.  `Run` histories make this precise: every
  datagram of the network has a step that sent it.
-/
import Lame.World

namespace Lame

open ByteMemory LabelledRuns PacketHandler

namespace World

variable {imencode : Mat → Nat → Option (List UInt8)} {endpoints : Endpoints}

/-! ## 1. Histories -/

def Sends (record : Record) (i : Nat) : Prop :=
  record.before.sent.length ≤ i ∧ i < record.after.sent.length

def handledOpcode (endpoints : Endpoints) (record : Record) : Option UInt8 :=
  (arriving record.before record.event).bind fun datagram =>
    if datagram.dest = endpoints.robot then requestedOpcode datagram.bytes else none

def switchOpcode : DriveMode → UInt8
  | .direct => DIRECT_SWITCH_OPCODE
  | .remote => REMOTE_SWITCH_OPCODE
  | .ai => AI_SWITCH_OPCODE

/-- The robot handles a request to switch to the mode. -/
def HandlesSwitch (endpoints : Endpoints) (record : Record) (mode : DriveMode) : Prop :=
  handledOpcode endpoints record = some (switchOpcode mode)

def StartsWorker (record : Record) : Prop :=
  record.before.window.connectionThread = none ∧
    record.after.window.connectionThread = some .starting

def DeclaresSuccess (record : Record) : Prop := .modeSwitched ∈ record.outputs

instance (record : Record) : Decidable (StartsWorker record) := by
  unfold StartsWorker
  infer_instance

instance (record : Record) : Decidable (DeclaresSuccess record) := by
  unfold DeclaresSuccess
  infer_instance

theorem running_of_run {history : List Record} {world : World}
    (hrun : Run (system imencode endpoints) history world) : world.robot.Running := by
  refine hrun.induction (fun _ world => world.robot.Running) ?_ ?_
  · rintro world ⟨-, hstarted, -⟩
    exact hstarted.running
  · rintro history before event after outputs - hrunning ⟨henabled, hstep⟩
    exact (step_spec hrunning henabled hstep).running

theorem spec_of_run {earlier later : List Record} {record : Record} {world : World}
    (hrun : Run (system imencode endpoints) (earlier ++ record :: later) world) :
    Spec endpoints record.before record.after record.event record.outputs := by
  obtain ⟨hbefore, henabled, hstep⟩ := hrun.split
  exact step_spec (running_of_run hbefore) henabled hstep

theorem sent_length_le_of_run {history : List Record} {world : World}
    (hrun : Run (system imencode endpoints) history world) :
    ∀ record ∈ history, record.after.sent.length ≤ world.sent.length := by
  refine hrun.induction (fun history world => ∀ record ∈ history,
    record.after.sent.length ≤ world.sent.length) (by simp) ?_
  intro history before event after outputs hbefore hgrows ⟨henabled, hstep⟩ record hmem
  obtain ⟨new, hsent, -⟩ := (step_spec (running_of_run hbefore) henabled hstep).sent
  rcases List.mem_append.mp hmem with hmem | hmem
  · have := hgrows record hmem
    rw [hsent, List.length_append]
    omega
  · obtain rfl := List.mem_singleton.mp hmem
    exact Nat.le_refl _

/-- **Every datagram has a sender.** -/
theorem exists_sender {history : List Record} {world : World}
    (hrun : Run (system imencode endpoints) history world) :
    ∀ (i : Nat) (datagram : Datagram), world.sent[i]? = some datagram →
      ∃ record ∈ history, Sends record i ∧
        Origin endpoints record.before record.event datagram := by
  refine hrun.induction (fun history world => ∀ (i : Nat) (datagram : Datagram),
    world.sent[i]? = some datagram → ∃ record ∈ history, Sends record i ∧
      Origin endpoints record.before record.event datagram) ?_ ?_
  · rintro world ⟨-, -, hnone⟩ i datagram hi
    rw [hnone] at hi
    cases hi
  · intro history before event after outputs hbefore ih ⟨henabled, hstep⟩ i datagram hi
    obtain ⟨new, hsent, horigin⟩ := (step_spec (running_of_run hbefore) henabled hstep).sent
    have hlt : i < after.sent.length := (List.getElem?_eq_some_iff.mp hi).1
    by_cases hold : i < before.sent.length
    · rw [hsent, List.getElem?_append_left hold] at hi
      obtain ⟨record, hmem, hrecord⟩ := ih i datagram hi
      exact ⟨record, List.mem_append_left _ hmem, hrecord⟩
    · rw [hsent, List.getElem?_append_right (Nat.le_of_not_lt hold)] at hi
      exact ⟨_, List.mem_append_right _ (List.mem_singleton_self _),
        ⟨Nat.le_of_not_lt hold, hlt⟩, horigin datagram (List.mem_of_getElem? hi)⟩

/-! ## 2. What is on the network -/

/-- The base station builds no acknowledgement and no AI_SWITCH. -/
theorem opcode_of_request (request : Request) :
    request.message.opcode ≠ SWITCH_MODE_ACK_OPCODE ∧
      request.message.opcode ≠ AI_SWITCH_OPCODE := by
  cases request <;> refine ⟨?_, ?_⟩ <;> intro h <;> cases h

/-- No AI_SWITCH is ever under way. -/
theorem requestedOpcode_ne_aiSwitch {history : List Record} {world : World}
    (hrun : Run (system imencode endpoints) history world) {i : Nat} {datagram : Datagram}
    (hi : world.sent[i]? = some datagram) :
    requestedOpcode datagram.bytes ≠ some AI_SWITCH_OPCODE := by
  have hframe {message : Message} (hend : message.lacksEndByte = false)
      (hne : message.opcode ≠ AI_SWITCH_OPCODE) :
      requestedOpcode message.frame ≠ some AI_SWITCH_OPCODE := by
    rw [Message.requestedOpcode_frame hend]
    exact fun h => hne (Option.some.inj h)
  obtain ⟨record, -, -, horigin⟩ := exists_sender hrun i datagram hi
  rcases horigin with (hempty | ⟨request, hrequest⟩) | ⟨request, -, -, hreply | hreply | hreply⟩
  · rw [hempty]
    decide
  · rw [hrequest]
    exact hframe request.lacksEndByte_message (opcode_of_request request).2
  · rw [hreply]
    exact hframe rfl (by decide)
  · rw [hreply]
    exact hframe rfl (by decide)
  · rw [hreply.1]
    exact hframe rfl (by decide)

/-- **Where an acknowledgement comes from**: the robot sent it while it handled a switch
    to Remote mode. -/
theorem exists_handling_of_isAck {history : List Record} {world : World}
    (hrun : Run (system imencode endpoints) history world) {i : Nat} {datagram : Datagram}
    (hi : world.sent[i]? = some datagram) (hack : IsAck datagram.bytes) :
    ∃ record ∈ history, Sends record i ∧ HandlesSwitch endpoints record .remote := by
  have hframe {message : Message} (hend : message.lacksEndByte = false)
      (hne : message.opcode ≠ SWITCH_MODE_ACK_OPCODE) : ¬ IsAck message.frame := by
    intro hack
    rw [IsAck, getPacketOpcode_frame hend] at hack
    exact hne (Except.ok.inj hack)
  obtain ⟨record, hmem, hsends, horigin⟩ := exists_sender hrun i datagram hi
  refine ⟨record, hmem, hsends, ?_⟩
  rcases horigin with (hempty | ⟨request, hrequest⟩) |
    ⟨request, harrives, hdest, hreply | hreply | ⟨-, hswitch⟩⟩
  · rw [hempty] at hack
    cases hack
  · rw [hrequest] at hack
    exact absurd hack (hframe request.lacksEndByte_message (opcode_of_request request).1)
  · rw [hreply] at hack
    exact absurd hack (hframe rfl (by decide))
  · rw [hreply] at hack
    exact absurd hack (hframe rfl (by decide))
  · rw [HandlesSwitch, handledOpcode, harrives, Option.bind_some, if_pos hdest]
    rcases hswitch with hswitch | hswitch
    · exact hswitch
    · obtain ⟨earlier, later, rfl⟩ := List.append_of_mem hmem
      obtain ⟨j, -, -, -, -, hj⟩ := arriving_eq_some harrives
      exact absurd hswitch (requestedOpcode_ne_aiSwitch hrun.split.1 hj)

/-! ## 3. The flag -/

/-- The callback receives the `i`-th datagram and takes it for an acknowledgement. -/
def ReceivesAck (endpoints : Endpoints) (record : Record) (i : Nat) : Prop :=
  (∃ now leftovers link, record.event = .deliver i now leftovers link) ∧
    record.before.window.receiving = true ∧
    ∃ datagram, record.before.sent[i]? = some datagram ∧ datagram.dest = endpoints.base ∧
      IsAck datagram.bytes

/-- A live connection thread has been started, and once it is past its first
    statements the flag stands for an acknowledgement received since. -/
def Waits (endpoints : Endpoints) (history : List Record) (world : World) : Prop :=
  ∀ worker, world.window.connectionThread = some worker →
    ∃ start since, LastEntry StartsWorker history start since ∧
      (worker ≠ .starting → world.window.receivedDriveModeAck = true →
        ∃ delivery ∈ since, ∃ i, ReceivesAck endpoints delivery i)

theorem Waits.snoc {history : List Record} {world after : World} {event : WorldEvent}
    {logs : List Log} (h : Waits endpoints history world)
    (hspec : Spec endpoints world after event logs) :
    Waits endpoints (history ++ [⟨world, event, logs, after⟩]) after := by
  intro worker hworker
  cases hspec.moves with
  | started hbefore hafter =>
      refine ⟨_, [], .of_kind ⟨hbefore, hafter⟩, fun hpast => absurd ?_ hpast⟩
      exact Option.some.inj (hworker.symm.trans hafter)
  | ended hafter => cases hafter.symm.trans hworker
  | reset hbefore hflag =>
      obtain ⟨start, since, hlast, -⟩ := h _ hbefore
      refine ⟨start, _, hlast.snoc fun hstarts => ?_, fun _ hset => ?_⟩
      · cases hbefore.symm.trans hstarts.1
      · rw [hflag] at hset
        cases hset
  | continued halive hstarting hflag =>
      have hthread := halive (by rw [hworker]; exact Option.some_ne_none _)
      obtain ⟨old, hold⟩ := Option.ne_none_iff_exists'.mp hthread
      obtain ⟨start, since, hlast, hwaits⟩ := h old hold
      refine ⟨start, _, hlast.snoc fun hstarts => hthread hstarts.1, fun hpast hset => ?_⟩
      rcases hflag hset with hset | ⟨datagram, harrives, hdest, hreceiving, hack⟩
      · have hpast' : old ≠ .starting := by
          rintro rfl
          exact hpast (Option.some.inj (hworker.symm.trans (hstarting hold)))
        obtain ⟨delivery, hmem, i, hreceives⟩ := hwaits hpast' hset
        exact ⟨delivery, List.mem_append_left _ hmem, i, hreceives⟩
      · obtain ⟨i, now, leftovers, link, hevent, hi⟩ := arriving_eq_some harrives
        exact ⟨_, List.mem_append_right _ (List.mem_singleton_self _), i,
          ⟨now, leftovers, link, hevent⟩, hreceiving, datagram, hi, hdest, hack⟩

theorem waits_of_run {history : List Record} {world : World}
    (hrun : Run (system imencode endpoints) history world) : Waits endpoints history world := by
  refine hrun.induction (Waits endpoints) ?_ ?_
  · rintro world ⟨hwindow, -, -⟩ worker hworker
    rw [hwindow] at hworker
    cases hworker
  · rintro history before event after outputs hbefore hwaits ⟨henabled, hstep⟩
    exact hwaits.snoc (step_spec (running_of_run hbefore) henabled hstep)

/-! ## 4. Declared successes -/

/-- Since the connection thread was started, the robot has handled a request for the
    mode that is declared. -/
def Agreement (endpoints : Endpoints) (history : List Record) : Prop :=
  ∀ earlier success later, history = earlier ++ success :: later → DeclaresSuccess success →
    ∀ start since, LastEntry StartsWorker earlier start since →
      ∃ handling ∈ since,
        HandlesSwitch endpoints handling success.before.window.currentDriveMode

/-- A declared success rests on an acknowledgement received since the thread was
    started.  The robot sent it while it handled a switch request, for Remote if that
    is the mode declared, and it did so since the thread was started unless the
    acknowledgement is older than that. -/
def RestsOnAck (endpoints : Endpoints) (history : List Record) : Prop :=
  ∀ earlier success later, history = earlier ++ success :: later → DeclaresSuccess success →
    success.after.window.isConnected = true ∧
    ∃ start since, LastEntry StartsWorker earlier start since ∧
      ∃ delivery ∈ since, ∃ i, ReceivesAck endpoints delivery i ∧
        ∃ handling ∈ earlier, Sends handling i ∧
          (∃ mode, HandlesSwitch endpoints handling mode ∧
            (success.before.window.currentDriveMode = .remote → mode = .remote)) ∧
          (start.after.sent.length ≤ i → handling ∈ since)

/-- A datagram that is younger than a step was sent after it. -/
theorem mem_of_sends {earlier since : List Record} {start handling : Record} {world : World}
    (hrun : Run (system imencode endpoints) (earlier ++ start :: since) world)
    (hmem : handling ∈ earlier ++ start :: since) {i : Nat} (hsends : Sends handling i)
    (hyoung : start.after.sent.length ≤ i) : handling ∈ since := by
  obtain ⟨hbefore, -⟩ := hrun.split
  obtain ⟨new, hsent, -⟩ := (spec_of_run hrun).sent
  have hgrows : start.before.sent.length ≤ start.after.sent.length := by
    rw [hsent, List.length_append]
    omega
  obtain ⟨-, hlt⟩ := hsends
  rcases List.mem_append.mp hmem with hmem | hmem
  · have := sent_length_le_of_run hbefore handling hmem
    omega
  · rcases List.mem_cons.mp hmem with rfl | hmem
    · omega
    · exact hmem

/-- **What a declared success rests on.** -/
theorem restsOnAck_of_run {history : List Record} {world : World}
    (hrun : Run (system imencode endpoints) history world) : RestsOnAck endpoints history := by
  rintro earlier success later rfl hdeclares
  obtain ⟨hbefore, -⟩ := hrun.split
  obtain ⟨hthread, hflag, hconnected, -⟩ := (spec_of_run hrun).declares hdeclares
  obtain ⟨start, since, hlast, hwaits⟩ := waits_of_run hbefore .requested hthread
  obtain ⟨delivery, hdelivery, i, hreceives⟩ := hwaits (by decide) hflag
  obtain ⟨datagram, hi, -, hack⟩ := hreceives.2.2
  refine ⟨hconnected, start, since, hlast, delivery, hdelivery, i, hreceives, ?_⟩
  obtain ⟨⟨front, rfl⟩, -⟩ := hlast
  -- the acknowledgement was sent in the run up to its delivery
  have hmem : delivery ∈ front ++ start :: since :=
    List.mem_append_right _ (List.mem_cons_of_mem _ hdelivery)
  obtain ⟨past, rest, hsplit⟩ := List.append_of_mem hmem
  have hpast := hbefore
  rw [hsplit] at hpast
  obtain ⟨handling, hhandling, hsends, hswitch⟩ := exists_handling_of_isAck hpast.split.1 hi hack
  have hearlier : handling ∈ front ++ start :: since := by
    rw [hsplit]
    exact List.mem_append_left _ hhandling
  exact ⟨handling, hearlier, hsends, ⟨.remote, hswitch, fun _ => rfl⟩,
    mem_of_sends hbefore hearlier hsends⟩

/-! ## 5. A success without a switch -/

def HOSTS : Endpoints where
  base := ⟨AF_INET, 0xC0A80002, PKT_PORT⟩
  robot := ⟨AF_INET, 0xC0A80003, PKT_PORT⟩
  distinct := by decide

/-- Window and robot have just been started. -/
def STARTED : World :=
  ⟨MainWindow.create, { Robot.create 6000 0 with isRunning := true }, []⟩

theorem initial_started : Initial STARTED := ⟨rfl, Robot.started_create 6000 0, rfl⟩

/-- A run from there, known by what `view` shows of it. -/
theorem exists_started_run {View : Type} (events : List WorldEvent)
    (view : List Record → World → View) (value : View)
    (henabled : ∀ event ∈ events, Enabled event)
    (hreplay : (replay (step (fun _ _ => none) HOSTS) STARTED events).toOption.map
      (fun result => view result.1 result.2) = some value) :
    ∃ history world, Run (system (fun _ _ => none) HOSTS) history world ∧
      view history world = value :=
  exists_run_of_replay _ events view value initial_started henabled hreplay

/-- A first press of Go with Remote selected, and its handshake. -/
def firstPress : List WorldEvent :=
  [.go 0 (some (.v4 0xC0A80003)), .worker, .worker, .deliver 0 0 ⟨ZERO_DRIVE, ⟨0⟩⟩ ⟨true, true⟩,
    .deliver 1 0 ⟨ZERO_DRIVE, ⟨0⟩⟩ ⟨true, true⟩, .worker, .worker,
    .deliver 2 0 ⟨ZERO_DRIVE, ⟨0⟩⟩ ⟨true, true⟩, .deliver 3 0 ⟨ZERO_DRIVE, ⟨0⟩⟩ ⟨true, true⟩,
    .worker, .worker]

/-- A second press.  The heartbeat report and the acknowledgement of the first one
    arrive again; nothing reaches the robot. -/
def secondPress : List WorldEvent :=
  [.go 0 (some (.v4 0xC0A80003)), .worker, .worker, .deliver 1 1 ⟨ZERO_DRIVE, ⟨0⟩⟩ ⟨true, true⟩,
    .worker, .worker, .deliver 3 1 ⟨ZERO_DRIVE, ⟨0⟩⟩ ⟨true, true⟩, .worker]

/-- What a record shows: a start, a success, the request handled, the mode. -/
def glimpse (record : Record) : Bool × Bool × Option UInt8 × DriveMode :=
  (StartsWorker record, DeclaresSuccess record, handledOpcode HOSTS record,
    record.before.window.currentDriveMode)

theorem exists_stale_success : ∃ (earlier : List Record) (success : Record) (world : World),
    Run (system (fun _ _ => none) HOSTS) (earlier ++ [success]) world ∧
      DeclaresSuccess success ∧ success.before.window.currentDriveMode = .remote ∧
      ∃ start since, LastEntry StartsWorker earlier start since ∧
        ∀ record ∈ since, handledOpcode HOSTS record = none := by
  have henabled : ∀ event ∈ firstPress ++ secondPress, Enabled event := by
    simp [firstPress, secondPress, Enabled]
  obtain ⟨history, world, hrun, hview⟩ := exists_started_run (firstPress ++ secondPress)
    (fun (history : List Record) _ => (history.map glimpse).drop 11)
    ((true, false, none, .remote) ::
      (List.replicate 6 (false, false, none, .remote) ++ [(false, true, none, .remote)]))
    henabled (by decide +kernel)
  rw [← List.map_drop] at hview
  obtain ⟨start, rest, hdrop, hstart, hrest⟩ := List.map_eq_cons_iff.mp hview
  obtain ⟨since, last, rfl, hsince, hlast⟩ := List.map_eq_append_iff.mp hrest
  obtain ⟨success, tail, rfl, hsuccess, hnil⟩ := List.map_eq_cons_iff.mp hlast
  obtain rfl := List.map_eq_nil_iff.mp hnil
  have hquiet : ∀ record ∈ since, ¬ StartsWorker record ∧ handledOpcode HOSTS record = none := by
    intro record hmem
    have hglimpse := List.eq_of_mem_replicate (hsince ▸ List.mem_map_of_mem hmem)
    simp only [glimpse, Prod.mk.injEq, decide_eq_false_iff_not] at hglimpse
    exact ⟨hglimpse.1, hglimpse.2.2.1⟩
  simp only [glimpse, Prod.mk.injEq, decide_eq_true_eq] at hstart hsuccess
  have hhistory : history = (history.take 11 ++ start :: since) ++ [success] := by
    rw [List.append_assoc, List.cons_append, ← hdrop, List.take_append_drop]
  rw [hhistory] at hrun
  exact ⟨_, success, world, hrun, hsuccess.2.1, hsuccess.2.2.2, start, since,
    ⟨⟨_, rfl⟩, hstart.1, fun record hmem => (hquiet record hmem).1⟩,
    fun record hmem => (hquiet record hmem).2⟩

/-- That success rests on the acknowledgement of the first press. -/
theorem restsOnAck_of_run_stale : ∃ (earlier : List Record) (success : Record)
    (world : World), Run (system (fun _ _ => none) HOSTS) (earlier ++ [success]) world ∧
      DeclaresSuccess success ∧ RestsOnAck HOSTS (earlier ++ [success]) := by
  obtain ⟨earlier, success, world, hrun, hdeclares, -⟩ := exists_stale_success
  exact ⟨earlier, success, world, hrun, hdeclares, restsOnAck_of_run hrun⟩

/-- A mode switch can be declared although the robot has handled nothing since the
    press. -/
theorem not_agreement_of_run : ¬ ∀ (imencode : Mat → Nat → Option (List UInt8))
    (endpoints : Endpoints) (history : List Record) (world : World),
    Run (system imencode endpoints) history world → Agreement endpoints history := by
  intro hclaim
  obtain ⟨earlier, success, world, hrun, hdeclares, hmode, start, since, hlast, hquiet⟩ :=
    exists_stale_success
  obtain ⟨handling, hmem, hswitch⟩ :=
    hclaim _ HOSTS _ world hrun earlier success [] rfl hdeclares start since hlast
  rw [HandlesSwitch, hquiet handling hmem] at hswitch
  cases hswitch

end World

end Lame
