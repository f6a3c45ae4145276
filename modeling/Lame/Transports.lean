/-
  Lame/Transports.lean
  ====================
  **The transports of the robot: `TcpClient`, `UdpSocket` and `SerialPort`.**

  A public operation is a function of the object and of what the operating system
  answers to the calls that the operation makes; every answer is possible at every
  time.  What can be observed of an operation are its calls, in order, and what it
  returns.  The variants for Windows and POSIX are told apart by a platform; the two
  `Open`s of `SerialPort` are two definitions, as in the source.

  A handle is an integer, with -1 for the invalid ones.  `UdpSocket` does not
  initialise its handle, so that a new socket has an arbitrary one.
-/
import Lame.HandleLedger
import Lame.LabelledRuns

namespace Lame

open HandleLedger LabelledRuns

/-! ## 1. The operating system -/

inductive Platform where
  | posix
  | windows
deriving DecidableEq, Repr

def INVALID_HANDLE : Int := -1

/-- A handle as the C code sees it. -/
def handleValue : Option Nat → Int
  | none => INVALID_HANDLE
  | some number => number

inductive OsCall where
  | wsaStartup (ok : Bool)
  | wsaCleanup
  | socket (result : Option Nat)
  | bind (handle : Int) (ok : Bool)
  | listen (handle : Int) (ok : Bool)
  | accept (handle : Int) (result : Option Nat)
  | connect (handle : Int) (ok : Bool)
  | send (handle : Int) (result : Int)
  | recv (handle : Int) (result : Int)
  | sendto (handle : Int) (result : Int)
  | recvfrom (handle : Int) (result : Int)
  /-- `open` and `CreateFileA`. -/
  | openPort (result : Option Nat)
  /-- `tcgetattr`, `tcflush`, `tcsetattr`. -/
  | configure (handle : Int)
  | getCommState (handle : Int) (ok : Bool)
  | setCommState (handle : Int) (ok : Bool)
  | setCommTimeouts (handle : Int) (ok : Bool)
  | writePort (handle : Int) (result : Option Int)
  | readPort (handle : Int) (result : Option Int)
  | close (handle : Int)
deriving DecidableEq, Repr

inductive Observed where
  | call (osCall : OsCall)
  | success (ok : Bool)
  | result (value : Int)
deriving DecidableEq, Repr

/-- What a call means for the ownership of handles. -/
def OsCall.action : OsCall → Option (Action Int)
  | .socket (some number) | .accept _ (some number) | .openPort (some number) =>
      some (.obtained number)
  | .close handle => some (.closed handle)
  | _ => none

def Observed.action : Observed → Option (Action Int)
  | .call osCall => osCall.action
  | _ => none

def actions (outputs : List Observed) : List (Action Int) :=
  outputs.filterMap Observed.action

@[simp] theorem actions_nil : actions [] = [] := rfl

@[simp] theorem actions_cons (first : Observed) (rest : List Observed) :
    actions (first :: rest) = first.action.toList ++ actions rest := by
  cases haction : first.action with
  | none => simp [actions, haction]
  | some action => simp [actions, haction]

theorem actions_append (first second : List Observed) :
    actions (first ++ second) = actions first ++ actions second :=
  List.filterMap_append

/-- A transfer, made or refused, leaves the object alone and neither obtains nor closes a
    handle. -/
theorem exists_transferred {State : Type} {refuses : Prop} [Decidable refuses]
    {osCall : OsCall} (hcall : osCall.action = none) (state : State) (result : Int) :
    ∃ outputs, (if refuses then (state, [.result (-1)])
        else (state, [.call osCall, .result result])) = (state, outputs) ∧
      actions outputs = [] := by
  split
  · exact ⟨_, rfl, rfl⟩
  · refine ⟨_, rfl, ?_⟩
    rw [actions_cons, Observed.action, hcall]
    rfl

/-- What an operation may be, as far as the state of the connection is concerned. -/
inductive Kind where
  /-- `Open` -/
  | opens
  /-- `Close` -/
  | closes
  /-- `Read` and `Write` -/
  | transfers
  /-- `Listen` and `Connect` -/
  | dials
deriving DecidableEq, Repr

/-- A class of transports: how its objects begin, what an operation does, what the
    destructor calls. -/
structure Transport (State Event : Type) where
  Initial : State → Prop
  step : State → Event → State × List Observed
  destroy : State → List Observed
  kind : Event → Kind
  isConnected : State → Bool

def Transport.system {State Event : Type} (transport : Transport State Event) :
    System State Event Observed where
  Initial := transport.Initial
  Step before event after outputs := transport.step before event = (after, outputs)

/-- Any operation can be next. -/
theorem Transport.run_step {State Event : Type} {transport : Transport State Event}
    {history : List (Entry State Event Observed)} {state : State}
    (hrun : Run transport.system history state) (event : Event) :
    Run transport.system
      (history ++ [⟨state, event, (transport.step state event).2, (transport.step state event).1⟩])
      (transport.step state event).1 :=
  hrun.step rfl

/-! ## 2. Opening a socket -/

/-- What the operating system answers to `Open`. -/
structure OpenOutcome where
  wsaStartup : Bool
  socket : Option Nat
  bind : Bool
deriving DecidableEq, Repr

/-- The answers let a socket be created. -/
def OpenOutcome.Creates (platform : Platform) (outcome : OpenOutcome) : Prop :=
  ¬ (platform = .windows ∧ outcome.wsaStartup = false) ∧ outcome.socket.isSome = true

/-- `OPEN_FAIL` -/
def openFail (platform : Platform) : List Observed :=
  match platform with
  | .posix => [.success false]
  | .windows => [.call .wsaCleanup, .success false]

/-- The common body of the two socket `Open`s: the handle to store, if there is one. -/
def openSocket (platform : Platform) (outcome : OpenOutcome) : Option Int × List Observed :=
  let startup : List Observed :=
    match platform with
    | .posix => []
    | .windows => [.call (.wsaStartup outcome.wsaStartup)]
  if platform = .windows ∧ outcome.wsaStartup = false then (none, startup ++ [.success false])
  else match outcome.socket with
    | none => (none, startup ++ .call (.socket none) :: openFail platform)
    | some number =>
        if outcome.bind then
          (some number, startup ++ [.call (.socket (some number)), .call (.bind number true),
            .success true])
        else
          (none, startup ++ .call (.socket (some number)) :: .call (.bind number false) ::
            openFail platform)

/-- The three ways in which opening a socket ends. -/
inductive Opening (platform : Platform) (outcome : OpenOutcome) :
    Option Int × List Observed → Prop where
  | noSocket {outputs : List Observed} (hactions : actions outputs = [])
      (hfailed : .success true ∉ outputs) : Opening platform outcome (none, outputs)
  | leaked {number : Nat} {outputs : List Observed} (hcreates : outcome.Creates platform)
      (hbind : outcome.bind = false) (hactions : actions outputs = [.obtained (number : Int)])
      (hfailed : .success true ∉ outputs) : Opening platform outcome (none, outputs)
  | bound {number : Nat} {outputs : List Observed} (hcreates : outcome.Creates platform)
      (hbind : outcome.bind = true) (hactions : actions outputs = [.obtained (number : Int)])
      (hsuccess : .success true ∈ outputs) :
      Opening platform outcome (some (number : Int), outputs)

theorem openSocket_opening (platform : Platform) (outcome : OpenOutcome) :
    Opening platform outcome (openSocket platform outcome) := by
  obtain ⟨wsaStartup, socket, bind⟩ := outcome
  cases platform with
  | posix =>
      cases socket with
      | none => exact .noSocket rfl (by simp [openFail])
      | some number =>
          have hstarted : ¬ (Platform.posix = .windows ∧ wsaStartup = false) := by simp
          cases bind with
          | false => exact .leaked ⟨hstarted, rfl⟩ rfl rfl (by simp [openFail])
          | true => exact .bound ⟨hstarted, rfl⟩ rfl rfl (by simp)
  | windows =>
      cases wsaStartup with
      | false => exact .noSocket rfl (by simp)
      | true =>
          cases socket with
          | none => exact .noSocket rfl (by simp [openFail])
          | some number =>
              have hstarted : ¬ (Platform.windows = .windows ∧ true = false) := by simp
              cases bind with
              | false => exact .leaked ⟨hstarted, rfl⟩ rfl rfl (by simp [openFail])
              | true => exact .bound ⟨hstarted, rfl⟩ rfl rfl (by simp)

/-! ## 3. `TcpClient` -/

structure TcpClient where
  port : Int
  handle : Int
  other_endpoint_handle : Int
  isOpen : Bool
  connected : Bool
  listener : Bool
deriving DecidableEq, Repr

namespace TcpClient

def create (port : Int) : TcpClient where
  port := port
  handle := INVALID_HANDLE
  other_endpoint_handle := INVALID_HANDLE
  isOpen := false
  connected := false
  listener := false

def Open (client : TcpClient) (platform : Platform) (outcome : OpenOutcome) :
    TcpClient × List Observed :=
  if client.isOpen ∨ client.connected then (client, [.success true])
  else match openSocket platform outcome with
    | (none, outputs) => (client, outputs)
    | (some sock_handle, outputs) =>
        ({ client with handle := sock_handle, isOpen := true }, outputs)

def Listen (client : TcpClient) (listen : Bool) (accept : Option Nat) :
    TcpClient × List Observed :=
  if !client.isOpen ∨ client.connected then (client, [.success true])
  else if !listen then (client, [.call (.listen client.handle false), .success false])
  else
    let success := decide (handleValue accept ≠ INVALID_HANDLE)
    ({ client with
        other_endpoint_handle := handleValue accept
        connected := client.connected || success
        listener := true },
      [.call (.listen client.handle true), .call (.accept client.handle accept),
        .success success])

def Connect (client : TcpClient) (connect : Bool) : TcpClient × List Observed :=
  if !client.isOpen ∨ client.connected then (client, [.success true])
  else ({ client with connected := client.connected || connect },
    [.call (.connect client.handle connect), .success connect])

def Close (client : TcpClient) : TcpClient × List Observed :=
  if !client.isOpen then (client, [])
  else
    ({ client with connected := false },
      (if client.handle ≠ INVALID_HANDLE then [.call (.close client.handle)] else []) ++
        if client.other_endpoint_handle ≠ INVALID_HANDLE then
          [.call (.close client.other_endpoint_handle)]
        else [])

def transferHandle (client : TcpClient) : Int :=
  if client.listener then client.other_endpoint_handle else client.handle

def Write (client : TcpClient) (send : Int) : TcpClient × List Observed :=
  if !client.isOpen ∨ !client.connected then (client, [.result (-1)])
  else (client, [.call (.send client.transferHandle send), .result send])

def Read (client : TcpClient) (recv : Int) : TcpClient × List Observed :=
  if !client.isOpen ∨ !client.connected then (client, [.result (-1)])
  else (client, [.call (.recv client.transferHandle recv), .result recv])

inductive Event where
  | Open (outcome : OpenOutcome)
  | Listen (listen : Bool) (accept : Option Nat)
  | Connect (connect : Bool)
  | Write (send : Int)
  | Read (recv : Int)
  | Close
deriving DecidableEq, Repr

def step (platform : Platform) (client : TcpClient) : Event → TcpClient × List Observed
  | .Open outcome => client.Open platform outcome
  | .Listen listen accept => client.Listen listen accept
  | .Connect connect => client.Connect connect
  | .Write send => client.Write send
  | .Read recv => client.Read recv
  | .Close => client.Close

/-- `~TcpClient` -/
def destroy (platform : Platform) (client : TcpClient) : List Observed :=
  if client.isOpen then
    client.Close.2 ++ match platform with
      | .posix => []
      | .windows => [.call .wsaCleanup]
  else []

def Event.kind : Event → Kind
  | .Open _ => .opens
  | .Close => .closes
  | .Write _ | .Read _ => .transfers
  | .Listen _ _ | .Connect _ => .dials

theorem step_transfers {event : Event} (h : event.kind = .transfers) (platform : Platform)
    (client : TcpClient) :
    ∃ outputs, step platform client event = (client, outputs) ∧ actions outputs = [] := by
  cases event with
  | Write => exact exists_transferred rfl client _
  | Read => exact exists_transferred rfl client _
  | Open | Listen | Connect | Close => cases h

def transport (platform : Platform) : Transport TcpClient Event where
  Initial client := ∃ port, client = create port
  step := step platform
  destroy := destroy platform
  kind := Event.kind
  isConnected := connected

end TcpClient

/-! ## 4. `UdpSocket` -/

structure UdpSocket where
  port : Int
  handle : Int
  isOpen : Bool
deriving DecidableEq, Repr

namespace UdpSocket

/-- The constructor leaves `handle` as it finds it. -/
def create (port garbage : Int) : UdpSocket where
  port := port
  handle := garbage
  isOpen := false

def Open (socket : UdpSocket) (platform : Platform) (outcome : OpenOutcome) :
    UdpSocket × List Observed :=
  match openSocket platform outcome with
  | (none, outputs) => (socket, outputs)
  | (some sock_handle, outputs) =>
      ({ socket with handle := sock_handle, isOpen := true }, outputs)

def Close (socket : UdpSocket) : UdpSocket × List Observed :=
  if !socket.isOpen then (socket, [])
  else ({ socket with isOpen := false }, [.call (.close socket.handle)])

def Write (socket : UdpSocket) (bufferNull destNull : Bool) (sendto : Int) :
    UdpSocket × List Observed :=
  if bufferNull ∨ destNull then (socket, [.result (-1)])
  else (socket, [.call (.sendto socket.handle sendto), .result sendto])

/-- The source address is filled in if there is room for it. -/
def Read (socket : UdpSocket) (bufferNull : Bool) (recvfrom : Int) :
    UdpSocket × List Observed :=
  if bufferNull then (socket, [.result (-1)])
  else (socket, [.call (.recvfrom socket.handle recvfrom), .result recvfrom])

inductive Event where
  | Open (outcome : OpenOutcome)
  | Close
  | Write (bufferNull destNull : Bool) (sendto : Int)
  | Read (bufferNull : Bool) (recvfrom : Int)
deriving DecidableEq, Repr

def step (platform : Platform) (socket : UdpSocket) : Event → UdpSocket × List Observed
  | .Open outcome => socket.Open platform outcome
  | .Close => socket.Close
  | .Write bufferNull destNull sendto => socket.Write bufferNull destNull sendto
  | .Read bufferNull recvfrom => socket.Read bufferNull recvfrom

/-- `~UdpSocket` -/
def destroy (socket : UdpSocket) : List Observed :=
  if socket.isOpen then socket.Close.2 else []

def Event.kind : Event → Kind
  | .Open _ => .opens
  | .Close => .closes
  | .Write _ _ _ | .Read _ _ => .transfers

theorem step_transfers {event : Event} (h : event.kind = .transfers) (platform : Platform)
    (socket : UdpSocket) :
    ∃ outputs, step platform socket event = (socket, outputs) ∧ actions outputs = [] := by
  cases event with
  | Write => exact exists_transferred rfl socket _
  | Read => exact exists_transferred rfl socket _
  | Open | Close => cases h

def transport (platform : Platform) : Transport UdpSocket Event where
  Initial socket := ∃ port garbage, socket = create port garbage
  step := step platform
  destroy := destroy
  kind := Event.kind
  isConnected _ := false

end UdpSocket

/-! ## 5. `SerialPort` -/

structure SerialPort where
  handle : Int
  opened : Bool
  port : String
  baud : Int
deriving DecidableEq, Repr

namespace SerialPort

/-- The constructor with a port name. -/
def create (port : String) (baud : Int) : SerialPort where
  handle := INVALID_HANDLE
  opened := false
  port := port
  baud := baud

/-- What Windows answers to `Open`. -/
structure CommOutcome where
  createFile : Option Nat
  getCommState : Bool
  setCommState : Bool
  setCommTimeouts : Bool
deriving DecidableEq, Repr

def OpenWindows (serial : SerialPort) (outcome : CommOutcome) : SerialPort × List Observed :=
  if serial.opened then (serial, [.success true])
  else
    let handle := handleValue outcome.createFile
    let serial := { serial with handle := handle }
    if handle = INVALID_HANDLE then
      (serial, [.call (.openPort outcome.createFile), .success false])
    else if !outcome.getCommState then
      (serial, [.call (.openPort outcome.createFile), .call (.getCommState handle false),
        .call (.close handle), .success false])
    else if !outcome.setCommState then
      (serial, [.call (.openPort outcome.createFile), .call (.getCommState handle true),
        .call (.setCommState handle false), .call (.close handle), .success false])
    else if !outcome.setCommTimeouts then
      (serial, [.call (.openPort outcome.createFile), .call (.getCommState handle true),
        .call (.setCommState handle true), .call (.setCommTimeouts handle false),
        .call (.close handle), .success false])
    else
      ({ serial with opened := true }, [.call (.openPort outcome.createFile),
        .call (.getCommState handle true), .call (.setCommState handle true),
        .call (.setCommTimeouts handle true), .success true])

/-- The answers of the configuring calls are not looked at. -/
def OpenPosix (serial : SerialPort) (fd : Option Nat) : SerialPort × List Observed :=
  if serial.opened then (serial, [.success true])
  else
    let handle := handleValue fd
    let serial := { serial with handle := handle }
    if handle < 0 then (serial, [.call (.openPort fd), .success false])
    else
      ({ serial with opened := true }, [.call (.openPort fd), .call (.configure handle),
        .call (.configure handle), .call (.configure handle), .success true])

/-- `Close`, the same on both platforms but for the name of the call. -/
def Close (serial : SerialPort) : SerialPort × List Observed :=
  ({ serial with opened := false },
    if serial.opened then [.call (.close serial.handle)] else [])

/-- The test of the handle in front of a transfer. -/
def refusesTransfer (serial : SerialPort) : Platform → Bool
  | .posix => serial.handle < 0
  | .windows => serial.handle = INVALID_HANDLE

/-- The number of bytes, or -1 when the call fails. -/
def transferred (result : Option Int) : Int := result.getD (-1)

def Write (serial : SerialPort) (platform : Platform) (result : Option Int) :
    SerialPort × List Observed :=
  if serial.refusesTransfer platform then (serial, [.result (-1)])
  else (serial, [.call (.writePort serial.handle result), .result (transferred result)])

def Read (serial : SerialPort) (platform : Platform) (result : Option Int) :
    SerialPort × List Observed :=
  if serial.refusesTransfer platform then (serial, [.result (-1)])
  else (serial, [.call (.readPort serial.handle result), .result (transferred result)])

inductive Event where
  | Open (outcome : CommOutcome)
  | Close
  | Write (result : Option Int)
  | Read (result : Option Int)
deriving DecidableEq, Repr

def step (platform : Platform) (serial : SerialPort) : Event → SerialPort × List Observed
  | .Open outcome =>
      match platform with
      | .posix => serial.OpenPosix outcome.createFile
      | .windows => serial.OpenWindows outcome
  | .Close => serial.Close
  | .Write result => serial.Write platform result
  | .Read result => serial.Read platform result

/-- `~SerialPort` -/
def destroy (serial : SerialPort) : List Observed := serial.Close.2

def Event.kind : Event → Kind
  | .Open _ => .opens
  | .Close => .closes
  | .Write _ | .Read _ => .transfers

theorem step_transfers {event : Event} (h : event.kind = .transfers) (platform : Platform)
    (serial : SerialPort) :
    ∃ outputs, step platform serial event = (serial, outputs) ∧ actions outputs = [] := by
  cases event with
  | Write => exact exists_transferred rfl serial _
  | Read => exact exists_transferred rfl serial _
  | Open | Close => cases h

def transport (platform : Platform) : Transport SerialPort Event where
  Initial serial := ∃ port baud, serial = create port baud
  step := step platform
  destroy := destroy
  kind := Event.kind
  isConnected _ := false

end SerialPort

end Lame
