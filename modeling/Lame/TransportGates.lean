/-
  Lame/TransportGates.lean
  ========================
  **Which operations of the transports test the state of the connection.**

  An object is open from a successful `Open` that obtained a handle up to the next
  `Close`; this is read off the calls of a run, not off the flags of the object.  An
  operation is gated when it fails without a call on an object that is not open, and
  when a dialing operation that reports success leaves a connection behind.

  `UdpSocket` and `SerialPort` have a flag that says whether they are open, but their
  transfers do not look at it: `UdpSocket` tests the buffers only, `SerialPort` the
  handle, which survives `Close`.  `TcpClient` tests its flag, but `Close` does not
  reset it, and a client that is not open reports that it is connected.
-/
import Lame.Transports

namespace Lame

open HandleLedger LabelledRuns

/-! ## 1. Open objects -/

section Gates

variable {State Event : Type}

/-- The calls of an operation obtained a handle, and the operation succeeded. -/
def opened (outputs : List Observed) : Bool :=
  outputs.contains (.success true) &&
    (actions outputs).any fun action =>
      match action with
      | .obtained _ => true
      | .closed _ => false

/-- Whether an object is open behind an operation. -/
def Kind.nowOpen (kind : Kind) (wasOpen : Bool) (outputs : List Observed) : Bool :=
  match kind with
  | .opens => wasOpen || opened outputs
  | .closes => false
  | .transfers | .dials => wasOpen

/-- Whether the operations so far have left the object open. -/
def Transport.currentlyOpen (transport : Transport State Event)
    (history : List (Entry State Event Observed)) : Bool :=
  history.foldl
    (fun wasOpen entry => (transport.kind entry.event).nowOpen wasOpen entry.outputs) false

/-- **A gated operation**: transfers of an object that is not open fail without a call,
    and dialing succeeds only with a connection. -/
def Transport.Gated (transport : Transport State Event) (isOpen : Bool) (before : State)
    (event : Event) : Prop :=
  match transport.kind event with
  | .transfers => isOpen = false →
      ∃ value < 0, (transport.step before event).2 = [.result value]
  | .dials => .success true ∈ (transport.step before event).2 →
      transport.isConnected (transport.step before event).1 = true
  | .opens | .closes => True

/-- An operation behind a run is gated. -/
def Transport.GatedAfter (transport : Transport State Event)
    (history : List (Entry State Event Observed)) (state : State) (event : Event) : Prop :=
  transport.Gated (transport.currentlyOpen history) state event

/-- The flag of the class says whether its object is open. -/
structure Tracks (transport : Transport State Event) (flag : State → Bool) : Prop where
  initial : ∀ state, transport.Initial state → flag state = false
  step : ∀ before event,
    flag (transport.step before event).1 =
      (transport.kind event).nowOpen (flag before) (transport.step before event).2

variable {transport : Transport State Event} {flag : State → Bool}
  {history : List (Entry State Event Observed)} {state : State}

theorem Tracks.currentlyOpen_eq (h : Tracks transport flag)
    (hrun : Run transport.system history state) :
    transport.currentlyOpen history = flag state := by
  induction hrun with
  | start hinit => exact (h.initial _ hinit).symm
  | @step history before after event outputs hrun hnext ih =>
      have hnext : transport.step before event = (after, outputs) := hnext
      have hflag := h.step before event
      unfold Transport.currentlyOpen at ih ⊢
      rw [List.foldl_append, ih, List.foldl_cons, List.foldl_nil]
      rw [hnext] at hflag
      exact hflag.symm

end Gates

theorem opened_of_not_success {outputs : List Observed} (h : .success true ∉ outputs) :
    opened outputs = false := by
  have hcontains : outputs.contains (.success true) = false := by
    simpa [List.contains_eq_mem] using h
  rw [opened, hcontains, Bool.false_and]

theorem opened_of_obtained {outputs : List Observed} {number : Int}
    (hactions : actions outputs = [.obtained number]) (h : .success true ∈ outputs) :
    opened outputs = true := by
  have hcontains : outputs.contains (.success true) = true := by
    simpa [List.contains_eq_mem] using h
  rw [opened, hcontains, hactions]
  rfl

/-- A transfer with a test in front is gated when the object is open or the test refuses. -/
theorem transfer_gated_iff {State : Type} {isOpen : Bool} {refuses : Prop} [Decidable refuses]
    (state : State) (osCall : OsCall) (result : Int) :
    (isOpen = false → ∃ value < 0,
      (if refuses then (state, [.result (-1)])
        else (state, [.call osCall, .result result])).2 = [Observed.result value]) ↔
    isOpen = true ∨ refuses := by
  by_cases hrefuses : refuses
  · rw [if_pos hrefuses]
    apply iff_of_true
    · intro _
      exact ⟨-1, by decide, rfl⟩
    · exact .inr hrefuses
  · rw [if_neg hrefuses, or_iff_left hrefuses]
    simp

/-! ## 2. `UdpSocket` -/

namespace UdpSocket

theorem tracks_isOpen (platform : Platform) : Tracks (transport platform) isOpen where
  initial := by
    rintro _ ⟨port, garbage, rfl⟩
    rfl
  step socket event := by
    show (step platform socket event).1.isOpen =
      event.kind.nowOpen socket.isOpen (step platform socket event).2
    have htransfers := @step_transfers event
    cases event with
    | Open outcome =>
        have hopening := openSocket_opening platform outcome
        rw [step, Open]
        generalize openSocket platform outcome = opened at hopening ⊢
        cases hopening with
        | noSocket _ hfailed | leaked _ _ _ hfailed =>
            simp [Event.kind, Kind.nowOpen, opened_of_not_success hfailed]
        | bound _ _ hactions hsuccess =>
            simp [Event.kind, Kind.nowOpen, opened_of_obtained hactions hsuccess]
    | Close =>
        cases hopen : socket.isOpen with
        | false => simp [step, Close, hopen, Event.kind, Kind.nowOpen]
        | true => simp [step, Close, hopen, Event.kind, Kind.nowOpen]
    | Write | Read =>
        obtain ⟨outputs, hstep, -⟩ := htransfers rfl platform socket
        rw [hstep]
        rfl

/-- A transfer is made on an open socket, or with a buffer or address that is missing. -/
def Guarded (socket : UdpSocket) : Event → Prop
  | .Write bufferNull destNull _ => socket.isOpen = true ∨ bufferNull = true ∨ destNull = true
  | .Read bufferNull _ => socket.isOpen = true ∨ bufferNull = true
  | .Open _ | .Close => True

theorem gated_iff (platform : Platform) (socket : UdpSocket) (event : Event) :
    (transport platform).Gated socket.isOpen socket event ↔ socket.Guarded event := by
  cases event with
  | Open outcome => exact .rfl
  | Close => exact .rfl
  | Write bufferNull destNull sendto =>
      exact transfer_gated_iff socket (.sendto socket.handle sendto) sendto
  | Read bufferNull recvfrom =>
      exact transfer_gated_iff socket (.recvfrom socket.handle recvfrom) recvfrom

end UdpSocket

/-! ## 3. `SerialPort` -/

namespace SerialPort

theorem opened_openWindows (serial : SerialPort) (outcome : CommOutcome) :
    (serial.OpenWindows outcome).1.opened =
      (serial.opened || Lame.opened (serial.OpenWindows outcome).2) := by
  obtain ⟨createFile, getCommState, setCommState, setCommTimeouts⟩ := outcome
  rw [OpenWindows]
  split
  · next hopened => rw [hopened, Bool.true_or]
  · next hclosed =>
    rw [Bool.eq_false_iff.mpr hclosed, Bool.false_or]
    cases createFile with
    | none => rfl
    | some number =>
        dsimp only
        rw [if_neg (by simp only [handleValue, INVALID_HANDLE]; omega)]
        cases getCommState with
        | false => rfl
        | true =>
            cases setCommState with
            | false => rfl
            | true =>
                cases setCommTimeouts with
                | false => rfl
                | true => rfl

theorem opened_openPosix (serial : SerialPort) (fd : Option Nat) :
    (serial.OpenPosix fd).1.opened =
      (serial.opened || Lame.opened (serial.OpenPosix fd).2) := by
  rw [OpenPosix]
  split
  · next hopened => rw [hopened, Bool.true_or]
  · next hclosed =>
    rw [Bool.eq_false_iff.mpr hclosed, Bool.false_or]
    cases fd with
    | none => rfl
    | some number =>
        dsimp only
        rw [if_neg (by simp only [handleValue]; omega)]
        rfl

theorem tracks_opened (platform : Platform) : Tracks (transport platform) opened where
  initial := by
    rintro _ ⟨port, baud, rfl⟩
    rfl
  step serial event := by
    show (step platform serial event).1.opened =
      event.kind.nowOpen serial.opened (step platform serial event).2
    have htransfers := @step_transfers event
    cases event with
    | Open outcome =>
        cases platform with
        | posix => exact opened_openPosix serial outcome.createFile
        | windows => exact opened_openWindows serial outcome
    | Close => rfl
    | Write | Read =>
        obtain ⟨outputs, hstep, -⟩ := htransfers rfl platform serial
        rw [hstep]
        rfl

/-- A transfer is made on an open port, or with an invalid handle. -/
def Guarded (platform : Platform) (serial : SerialPort) : Event → Prop
  | .Write _ | .Read _ => serial.opened = true ∨ serial.refusesTransfer platform = true
  | .Open _ | .Close => True

theorem gated_iff (platform : Platform) (serial : SerialPort) (event : Event) :
    (transport platform).Gated serial.opened serial event ↔ serial.Guarded platform event := by
  cases event with
  | Open outcome => exact .rfl
  | Close => exact .rfl
  | Write result =>
      exact transfer_gated_iff serial (.writePort serial.handle result) (transferred result)
  | Read result =>
      exact transfer_gated_iff serial (.readPort serial.handle result) (transferred result)

end SerialPort

/-! ## 4. `TcpClient` -/

namespace TcpClient

/-- Transfers are made on a client that is open or reports no connection, and dialing is
    done with `isOpen` set. -/
def Guarded (client : TcpClient) (wasOpen : Bool) : Event → Prop
  | .Write _ | .Read _ => wasOpen = true ∨ client.connected = false
  | .Listen _ _ | .Connect _ => client.isOpen = true
  | .Open _ | .Close => True

theorem isOpen_of_dials {client : TcpClient}
    (h : ¬ ((!client.isOpen) = true ∨ client.connected = true)) : client.isOpen = true := by
  by_contra hclosed
  exact h (.inl (by simpa using hclosed))

/-- Only a client with its flag set is ever connected. -/
theorem isOpen_of_connected {platform : Platform} {client : TcpClient}
    (h : Reachable (transport platform).system client) :
    client.connected = true → client.isOpen = true := by
  apply h.invariant (fun client => client.connected = true → client.isOpen = true)
  · rintro _ ⟨port, rfl⟩ hconnected
    cases hconnected
  · intro before event after outputs hbefore hstep
    have hafter : after = (step platform before event).1 := (congrArg Prod.fst hstep).symm
    rw [hafter]
    have htransfers := @step_transfers event
    cases event with
    | Open outcome =>
        rw [step, Open]
        split
        · exact hbefore
        · split
          · exact hbefore
          · intro _
            rfl
    | Listen listen accept =>
        rw [step, Listen]
        split
        · exact hbefore
        · next hidle =>
          split
          · exact hbefore
          · intro _
            have hopen : before.isOpen = true := isOpen_of_dials hidle
            exact hopen
    | Connect connect =>
        rw [step, Connect]
        split
        · exact hbefore
        · next hidle =>
          intro _
          have hopen : before.isOpen = true := isOpen_of_dials hidle
          exact hopen
    | Write | Read =>
        obtain ⟨outputs, htransfer, -⟩ := htransfers rfl platform before
        rw [htransfer]
        exact hbefore
    | Close =>
        rw [step, Close]
        split
        · exact hbefore
        · intro hconnected
          cases hconnected

/-- A transfer is refused exactly without a connection. -/
theorem refuses_iff {client : TcpClient}
    (h : client.connected = true → client.isOpen = true) :
    ((!client.isOpen) = true ∨ (!client.connected) = true) ↔ client.connected = false := by
  constructor
  · rintro (hclosed | hconnected)
    · by_contra hconnected
      rw [h (by simpa using hconnected)] at hclosed
      cases hclosed
    · simpa using hconnected
  · intro hconnected
    exact .inr (by rw [hconnected]; rfl)

/-- A dialing operation that is left early reports success. -/
theorem dial_gated_iff {client : TcpClient}
    (h : client.connected = true → client.isOpen = true)
    (hearly : (!client.isOpen) = true ∨ client.connected = true) :
    (Observed.success true ∈ [Observed.success true] → client.connected = true) ↔
      client.isOpen = true := by
  constructor
  · intro hgated
    exact h (hgated List.mem_cons_self)
  · intro hopen _
    rcases hearly with hclosed | hconnected
    · rw [hopen] at hclosed
      cases hclosed
    · exact hconnected

theorem gated_iff (platform : Platform) {client : TcpClient}
    (h : client.connected = true → client.isOpen = true) (wasOpen : Bool) (event : Event) :
    (transport platform).Gated wasOpen client event ↔ client.Guarded wasOpen event := by
  cases event with
  | Open outcome => exact .rfl
  | Close => exact .rfl
  | Write send =>
      have hiff := @transfer_gated_iff TcpClient wasOpen
        ((!client.isOpen) = true ∨ (!client.connected) = true) _ client
        (.send client.transferHandle send) send
      exact hiff.trans (or_congr_right (refuses_iff h))
  | Read recv =>
      have hiff := @transfer_gated_iff TcpClient wasOpen
        ((!client.isOpen) = true ∨ (!client.connected) = true) _ client
        (.recv client.transferHandle recv) recv
      exact hiff.trans (or_congr_right (refuses_iff h))
  | Listen listen accept =>
      show (.success true ∈ (client.Listen listen accept).2 →
        (client.Listen listen accept).1.connected = true) ↔ client.isOpen = true
      rw [Listen]
      split
      · next hearly => exact dial_gated_iff h hearly
      · next hidle =>
        apply iff_of_true _ (isOpen_of_dials hidle)
        split
        · simp
        · simp only [List.mem_cons, reduceCtorEq, false_or, List.not_mem_nil, or_false]
          intro hsuccess
          rw [← Observed.success.inj hsuccess, Bool.or_true]
  | Connect connect =>
      show (.success true ∈ (client.Connect connect).2 →
        (client.Connect connect).1.connected = true) ↔ client.isOpen = true
      rw [Connect]
      split
      · next hearly => exact dial_gated_iff h hearly
      · next hidle =>
        apply iff_of_true _ (isOpen_of_dials hidle)
        simp only [List.mem_cons, reduceCtorEq, false_or, List.not_mem_nil, or_false]
        intro hsuccess
        rw [← Observed.success.inj hsuccess, Bool.or_true]

end TcpClient

/-! ## 5. The three classes -/

/-- **Gating** of the next operation behind any run, exactly when it is guarded. -/
theorem gated_after_run_iff (platform : Platform) :
    (∀ history client event, Run (TcpClient.transport platform).system history client →
      ((TcpClient.transport platform).GatedAfter history client event ↔
        client.Guarded ((TcpClient.transport platform).currentlyOpen history) event)) ∧
    (∀ history socket event, Run (UdpSocket.transport platform).system history socket →
      ((UdpSocket.transport platform).GatedAfter history socket event ↔
        socket.Guarded event)) ∧
    (∀ history serial event, Run (SerialPort.transport platform).system history serial →
      ((SerialPort.transport platform).GatedAfter history serial event ↔
        serial.Guarded platform event)) := by
  refine ⟨?_, ?_, ?_⟩
  · intro history client event hrun
    exact TcpClient.gated_iff platform (TcpClient.isOpen_of_connected ⟨history, hrun⟩) _ event
  · intro history socket event hrun
    unfold Transport.GatedAfter
    rw [(UdpSocket.tracks_isOpen platform).currentlyOpen_eq hrun]
    exact UdpSocket.gated_iff platform socket event
  · intro history serial event hrun
    unfold Transport.GatedAfter
    rw [(SerialPort.tracks_opened platform).currentlyOpen_eq hrun]
    exact SerialPort.gated_iff platform serial event

/-- Operations that are gated: an accept on an open client, a datagram on an open socket,
    a write on a port whose `open` failed. -/
theorem gated_after_run_example :
    (∃ history client, Run (TcpClient.transport .posix).system history client ∧
      client.isOpen = true ∧
      (TcpClient.transport .posix).GatedAfter history client (.Listen true (some 4))) ∧
    (∃ history socket, Run (UdpSocket.transport .posix).system history socket ∧
      socket.isOpen = true ∧
      (UdpSocket.transport .posix).GatedAfter history socket (.Write false false 5)) ∧
    (∃ history serial, Run (SerialPort.transport .posix).system history serial ∧
      serial.opened = false ∧
      (SerialPort.transport .posix).GatedAfter history serial (.Write (some 5))) := by
  refine ⟨?_, ?_, ?_⟩
  · have hstart : Run (TcpClient.transport .posix).system [] (TcpClient.create 0) := .start ⟨0, rfl⟩
    have hrun := Transport.run_step hstart (.Open ⟨true, some 3, true⟩)
    exact ⟨_, _, hrun, rfl, ((gated_after_run_iff .posix).1 _ _ _ hrun).mpr rfl⟩
  · have hstart : Run (UdpSocket.transport .posix).system [] (UdpSocket.create 0 0) :=
      .start ⟨0, 0, rfl⟩
    have hrun := Transport.run_step hstart (.Open ⟨true, some 3, true⟩)
    exact ⟨_, _, hrun, rfl, ((gated_after_run_iff .posix).2.1 _ _ _ hrun).mpr (.inl rfl)⟩
  · have hstart : Run (SerialPort.transport .posix).system []
        (SerialPort.create "/dev/ttyACM0" 9600) := .start ⟨_, _, rfl⟩
    have hrun := Transport.run_step hstart (.Open ⟨none, true, true, true⟩)
    exact ⟨_, _, hrun, rfl, ((gated_after_run_iff .posix).2.2 _ _ _ hrun).mpr (.inr rfl)⟩

/-- A new client reports that it is connected, a new socket sends, and a port writes
    behind its `Close`. -/
theorem not_always_gated :
    (¬ ∀ history client event, Run (TcpClient.transport .posix).system history client →
      (TcpClient.transport .posix).GatedAfter history client event) ∧
    (¬ ∀ history socket event, Run (UdpSocket.transport .posix).system history socket →
      (UdpSocket.transport .posix).GatedAfter history socket event) ∧
    (¬ ∀ history serial event, Run (SerialPort.transport .posix).system history serial →
      (SerialPort.transport .posix).GatedAfter history serial event) := by
  refine ⟨?_, ?_, ?_⟩
  · intro hall
    have hgated := hall [] (TcpClient.create 0) (.Connect true) (.start ⟨0, rfl⟩)
    have hconnected : (TcpClient.create 0).connected = true := hgated (by decide)
    cases hconnected
  · intro hall
    have hgated := hall [] (UdpSocket.create 0 7) (.Write false false 5) (.start ⟨0, 7, rfl⟩)
    obtain ⟨value, -, hcalls⟩ := hgated rfl
    cases hcalls
  · intro hall
    have hstart : Run (SerialPort.transport .posix).system []
        (SerialPort.create "/dev/ttyACM0" 9600) := .start ⟨_, _, rfl⟩
    have hopened := Transport.run_step hstart (.Open ⟨some 3, true, true, true⟩)
    have hclosed := Transport.run_step hopened .Close
    have hgated := hall _ _ (.Write (some 5)) hclosed
    obtain ⟨value, -, hcalls⟩ := hgated rfl
    cases hcalls

end Lame
