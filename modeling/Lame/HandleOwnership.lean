/-
  Lame/HandleOwnership.lean
  =========================
  **Who closes the handles of the transports.**

  An `Owner` of a class names the handles that an object owns in each state, and shows
  that every operation settles its calls to the handles owned afterwards and that the
  destructor closes them all.  `Owner.closesEachOnce` is the induction over runs.

  `SerialPort` is an owner without conditions.  `UdpSocket` loses a handle when `bind`
  fails and when it is opened twice; `TcpClient` loses one when `bind` fails, and its
  `Close` leaves `isOpen` set, so that the destructor closes the same handles again.
-/
import Lame.Transports

namespace Lame

open HandleLedger LabelledRuns

/-! ## 1. Owners -/

section Owners

variable {State Event : Type}

/-- All that an object obtains and closes in a run and in its destructor. -/
def Transport.lifetime (transport : Transport State Event)
    (history : List (Entry State Event Observed)) (state : State) : List (Action Int) :=
  actions (history.flatMap Entry.outputs) ++ actions (transport.destroy state)

/-- Every handle of the run is closed once, and no other, when the destructor is done. -/
def Transport.ClosesEachOnce (transport : Transport State Event)
    (history : List (Entry State Event Observed)) (state : State) : Prop :=
  EachClosedOnce (transport.lifetime history state)

/-- An account of the handles owned in each state, for the operations that are fine. -/
structure Owner (transport : Transport State Event) (Fine : State → Event → Prop) where
  owned : State → List Int
  Inv : State → Prop
  initial : ∀ state, transport.Initial state → Inv state ∧ owned state = []
  step : ∀ before event, Inv before → Fine before event →
    Inv (transport.step before event).1 ∧
      settle (owned before) (actions (transport.step before event).2) =
        some (owned (transport.step before event).1)
  destroy : ∀ state, Inv state →
    settle (owned state) (actions (transport.destroy state)) = some []

variable {transport : Transport State Event} {Fine : State → Event → Prop}
  {history : List (Entry State Event Observed)} {state : State}

/-- The handles owned are those that the run has obtained and not closed. -/
theorem Owner.settle_of_run (owner : Owner transport Fine)
    (hrun : Run transport.system history state)
    (hfine : ∀ entry ∈ history, Fine entry.before entry.event) :
    owner.Inv state ∧
      settle [] (actions (history.flatMap Entry.outputs)) = some (owner.owned state) := by
  induction hrun with
  | start h =>
      obtain ⟨hinv, howned⟩ := owner.initial _ h
      rw [howned]
      exact ⟨hinv, rfl⟩
  | @step history before after event outputs hrun hnext ih =>
      have hnext : transport.step before event = (after, outputs) := hnext
      obtain ⟨hinv, hsettled⟩ := ih fun entry hmem => hfine entry (List.mem_append_left _ hmem)
      obtain ⟨hafter, hstep⟩ := owner.step before event hinv
        (hfine _ (List.mem_append_right _ (List.mem_singleton_self _)))
      rw [hnext] at hafter hstep
      refine ⟨hafter, ?_⟩
      rw [List.flatMap_append, actions_append, settle_append_of hsettled, List.flatMap_singleton]
      exact hstep

/-- **Owners close each handle once.** -/
theorem Owner.closesEachOnce (owner : Owner transport Fine)
    (hrun : Run transport.system history state)
    (hfine : ∀ entry ∈ history, Fine entry.before entry.event) :
    transport.ClosesEachOnce history state := by
  obtain ⟨hinv, hsettled⟩ := owner.settle_of_run hrun hfine
  unfold Transport.ClosesEachOnce EachClosedOnce Transport.lifetime
  rw [settle_append_of hsettled]
  exact owner.destroy state hinv

end Owners

/-! ## 2. `UdpSocket` -/

namespace UdpSocket

/-- A socket is created for a closed object only, and then bound. -/
def Careful (platform : Platform) (socket : UdpSocket) : Event → Prop
  | .Open outcome => outcome.Creates platform → outcome.bind = true ∧ socket.isOpen = false
  | .Close | .Write _ _ _ | .Read _ _ => True

def owned (socket : UdpSocket) : List Int :=
  if socket.isOpen then [socket.handle] else []

theorem owned_step (platform : Platform) (socket : UdpSocket) (event : Event)
    (hcareful : Careful platform socket event) :
    settle socket.owned (actions (step platform socket event).2) =
      some (step platform socket event).1.owned := by
  have htransfers := @step_transfers event
  cases event with
  | Open outcome =>
      have hcareful : outcome.Creates platform → outcome.bind = true ∧ socket.isOpen = false :=
        hcareful
      have hopening := openSocket_opening platform outcome
      rw [step, Open]
      generalize openSocket platform outcome = opened at hopening ⊢
      cases hopening with
      | noSocket hactions => rw [hactions, settle]
      | leaked hcreates hbind =>
          rw [(hcareful hcreates).1] at hbind
          cases hbind
      | bound hcreates _ hactions =>
          rw [hactions, owned, (hcareful hcreates).2]
          rfl
  | Close =>
      rw [step, Close, owned]
      cases hopen : socket.isOpen with
      | false => simp [owned, hopen, settle]
      | true =>
          simp [owned, Observed.action, OsCall.action, settle]
  | Write | Read =>
      obtain ⟨outputs, hstep, hactions⟩ := htransfers rfl platform socket
      rw [hstep, hactions, settle]

def owner (platform : Platform) : Owner (transport platform) (Careful platform) where
  owned := owned
  Inv _ := True
  initial := by
    rintro _ ⟨port, garbage, rfl⟩
    exact ⟨trivial, rfl⟩
  step before event _ hcareful := ⟨trivial, owned_step platform before event hcareful⟩
  destroy socket _ := by
    show settle socket.owned (actions socket.destroy) = some []
    cases hopen : socket.isOpen with
    | false => simp [owned, destroy, hopen, settle]
    | true =>
        simp [owned, destroy, Close, hopen, Observed.action, OsCall.action, settle]

end UdpSocket

/-! ## 3. `SerialPort` -/

namespace SerialPort

def owned (serial : SerialPort) : List Int :=
  if serial.opened then [serial.handle] else []

/-- A port that cannot be configured is closed again on the spot. -/
theorem owned_openWindows (serial : SerialPort) (outcome : CommOutcome) :
    settle serial.owned (actions (serial.OpenWindows outcome).2) =
      some (serial.OpenWindows outcome).1.owned := by
  obtain ⟨createFile, getCommState, setCommState, setCommTimeouts⟩ := outcome
  cases hopened : serial.opened with
  | true =>
      rw [OpenWindows, hopened]
      rfl
  | false =>
      rw [OpenWindows, hopened, owned, hopened]
      cases createFile with
      | none => simp [handleValue, owned, Observed.action, OsCall.action, settle]
      | some number =>
          have hvalid : handleValue (some number) ≠ INVALID_HANDLE := by
            simp only [handleValue, INVALID_HANDLE]
            omega
          dsimp only
          rw [if_neg (by decide), if_neg hvalid]
          cases getCommState with
          | false => exact settle_obtained_closed [] _
          | true =>
              cases setCommState with
              | false => exact settle_obtained_closed [] _
              | true =>
                  cases setCommTimeouts with
                  | false => exact settle_obtained_closed [] _
                  | true => rfl

theorem owned_openPosix (serial : SerialPort) (fd : Option Nat) :
    settle serial.owned (actions (serial.OpenPosix fd).2) =
      some (serial.OpenPosix fd).1.owned := by
  cases hopened : serial.opened with
  | true =>
      rw [OpenPosix, hopened]
      rfl
  | false =>
      rw [OpenPosix, hopened, owned, hopened]
      cases fd with
      | none => simp [handleValue, INVALID_HANDLE, owned, Observed.action, OsCall.action, settle]
      | some number =>
          have hvalid : ¬ handleValue (some number) < 0 := by
            simp only [handleValue]
            omega
          dsimp only
          rw [if_neg (by decide), if_neg hvalid]
          simp [handleValue, owned, Observed.action, OsCall.action, settle]

theorem owned_close (serial : SerialPort) :
    settle serial.owned (actions serial.Close.2) = some [] ∧ serial.Close.1.owned = [] := by
  constructor
  · cases hopened : serial.opened with
    | false => simp [owned, Close, hopened, settle]
    | true => simp [owned, Close, hopened, Observed.action, OsCall.action, settle]
  · rfl

def owner (platform : Platform) : Owner (transport platform) (fun _ _ => True) where
  owned := owned
  Inv _ := True
  initial := by
    rintro _ ⟨port, baud, rfl⟩
    exact ⟨trivial, rfl⟩
  step before event _ _ := by
    refine ⟨trivial, ?_⟩
    show settle before.owned (actions (step platform before event).2) =
      some (step platform before event).1.owned
    have htransfers := @step_transfers event
    cases event with
    | Open outcome =>
        cases platform with
        | posix => exact owned_openPosix before outcome.createFile
        | windows => exact owned_openWindows before outcome
    | Close =>
        obtain ⟨hsettled, hnone⟩ := owned_close before
        rw [step, hsettled, hnone]
    | Write | Read =>
        obtain ⟨outputs, hstep, hactions⟩ := htransfers rfl platform before
        rw [hstep, hactions, settle]
  destroy serial _ := (owned_close serial).1

end SerialPort

/-! ## 4. `TcpClient` -/

namespace TcpClient

/-- A created socket is bound, and only the destructor closes an open client. -/
def Careful (platform : Platform) (client : TcpClient) : Event → Prop
  | .Open outcome => client.isOpen = false → outcome.Creates platform → outcome.bind = true
  | .Close => client.isOpen = false
  | .Listen _ _ | .Connect _ | .Write _ | .Read _ => True

/-- The accepted handle before the own one, in the order in which they came. -/
def owned (client : TcpClient) : List Int :=
  if client.isOpen then
    if client.other_endpoint_handle = INVALID_HANDLE then [client.handle]
    else [client.other_endpoint_handle, client.handle]
  else []

/-- A handle is held by an open client only, and an accepted one by a connected client. -/
structure Holds (client : TcpClient) : Prop where
  handle : client.isOpen = true → client.handle ≠ INVALID_HANDLE
  connected : client.connected = true → client.isOpen = true
  accepted : client.other_endpoint_handle ≠ INVALID_HANDLE → client.connected = true

theorem handleValue_some_ne (number : Nat) : handleValue (some number) ≠ INVALID_HANDLE := by
  simp only [handleValue, INVALID_HANDLE]
  omega

theorem owned_open {platform : Platform} {client : TcpClient} {outcome : OpenOutcome}
    (h : client.Holds) (hcareful : Careful platform client (.Open outcome)) :
    (client.Open platform outcome).1.Holds ∧
      settle client.owned (actions (client.Open platform outcome).2) =
        some (client.Open platform outcome).1.owned := by
  have hcareful : client.isOpen = false → outcome.Creates platform → outcome.bind = true :=
    hcareful
  rw [Open]
  by_cases hbusy : client.isOpen = true ∨ client.connected = true
  · rw [if_pos hbusy]
    exact ⟨h, rfl⟩
  · rw [if_neg hbusy]
    have hclosed : client.isOpen = false := Bool.eq_false_iff.mpr fun hopen => hbusy (.inl hopen)
    have hother : client.other_endpoint_handle = INVALID_HANDLE :=
      not_not.mp fun hother => hbusy (.inr (h.accepted hother))
    have hopening := openSocket_opening platform outcome
    generalize openSocket platform outcome = opened at hopening ⊢
    cases hopening with
    | noSocket hactions =>
        refine ⟨h, ?_⟩
        rw [hactions, settle]
    | leaked hcreates hbind =>
        rw [hcareful hclosed hcreates] at hbind
        cases hbind
    | @bound number _ hcreates _ hactions =>
        constructor
        · exact ⟨fun _ => handleValue_some_ne number, fun _ => rfl, h.accepted⟩
        · rw [hactions, owned, hclosed]
          simp [owned, hother, settle]

theorem owned_listen {client : TcpClient} (h : client.Holds) (listen : Bool)
    (accept : Option Nat) :
    (client.Listen listen accept).1.Holds ∧
      settle client.owned (actions (client.Listen listen accept).2) =
        some (client.Listen listen accept).1.owned := by
  rw [Listen]
  by_cases hidle : client.isOpen = true ∧ client.connected = false
  · obtain ⟨hopen, hconnected⟩ := hidle
    have hother : client.other_endpoint_handle = INVALID_HANDLE := by
      by_contra hother
      rw [h.accepted hother] at hconnected
      cases hconnected
    rw [if_neg (by simp [hopen, hconnected])]
    cases listen with
    | false => exact ⟨h, rfl⟩
    | true =>
        cases accept with
        | none =>
            refine ⟨⟨h.handle, fun _ => hopen, ?_⟩, ?_⟩
            · intro hinvalid
              exact absurd rfl hinvalid
            · simp [owned, hopen, hother, handleValue, Observed.action, OsCall.action, settle]
        | some number =>
            have hvalid := handleValue_some_ne number
            constructor
            · refine ⟨h.handle, fun _ => hopen, ?_⟩
              intro _
              simp [hvalid]
            · have hvalid' : ¬ (number : Int) = INVALID_HANDLE := hvalid
              simp [owned, hopen, hother, handleValue, hvalid', Observed.action, OsCall.action,
                settle]
  · rw [if_pos]
    · exact ⟨h, rfl⟩
    · cases hopen : client.isOpen with
      | false => exact .inl rfl
      | true =>
          right
          by_contra hconnected
          exact hidle ⟨hopen, Bool.eq_false_iff.mpr hconnected⟩

theorem owned_connect {client : TcpClient} (h : client.Holds) (connect : Bool) :
    (client.Connect connect).1.Holds ∧
      settle client.owned (actions (client.Connect connect).2) =
        some (client.Connect connect).1.owned := by
  rw [Connect]
  split
  · exact ⟨h, rfl⟩
  · next hidle =>
    have hopen : client.isOpen = true := by
      by_contra hclosed
      exact hidle (.inl (by simp [hclosed]))
    refine ⟨⟨h.handle, fun _ => hopen, ?_⟩, rfl⟩
    intro haccepted
    have hconnected : client.connected = true := h.accepted haccepted
    simp [hconnected]

/-- The destructor closes the own handle first. -/
theorem owned_destroy (platform : Platform) {client : TcpClient} (h : client.Holds) :
    settle client.owned (actions (client.destroy platform)) = some [] := by
  cases hopen : client.isOpen with
  | false => simp [destroy, owned, hopen, settle]
  | true =>
      have hhandle := h.handle hopen
      by_cases hother : client.other_endpoint_handle = INVALID_HANDLE
      · have hclosed : actions (client.destroy platform) = [client.handle].map .closed := by
          cases platform <;>
            simp [destroy, Close, hopen, hhandle, hother, Observed.action, OsCall.action]
        rw [hclosed, owned, hopen, if_pos rfl, if_pos hother]
        exact settle_closed (.refl _)
      · have hclosed : actions (client.destroy platform) =
            [client.handle, client.other_endpoint_handle].map .closed := by
          cases platform <;>
            simp [destroy, Close, hopen, hhandle, hother, Observed.action, OsCall.action]
        rw [hclosed, owned, hopen, if_pos rfl, if_neg hother]
        exact settle_closed (.swap _ _ _)

def owner (platform : Platform) : Owner (transport platform) (Careful platform) where
  owned := owned
  Inv := Holds
  initial := by
    rintro _ ⟨port, rfl⟩
    refine ⟨⟨?_, ?_, ?_⟩, rfl⟩
    · intro hopen
      cases hopen
    · intro hconnected
      cases hconnected
    · intro haccepted
      exact absurd rfl haccepted
  step client event h hcareful := by
    show (step platform client event).1.Holds ∧
      settle client.owned (actions (step platform client event).2) =
        some (step platform client event).1.owned
    have htransfers := @step_transfers event
    cases event with
    | Open outcome => exact owned_open h hcareful
    | Listen listen accept => exact owned_listen h listen accept
    | Connect connect => exact owned_connect h connect
    | Write | Read =>
        obtain ⟨outputs, hstep, hactions⟩ := htransfers rfl platform client
        rw [hstep, hactions, settle]
        exact ⟨h, rfl⟩
    | Close =>
        have hclosed : client.isOpen = false := hcareful
        rw [step, Close, hclosed]
        exact ⟨h, rfl⟩
  destroy _ h := owned_destroy platform h

end TcpClient

/-! ## 5. The three classes -/

/-- **Each handle is closed once**, in runs of a `TcpClient` and of a `UdpSocket` that are
    careful at every step, and in all runs of a `SerialPort`. -/
theorem handles_closed_once (platform : Platform) :
    (∀ history client, Run (TcpClient.transport platform).system history client →
      (∀ entry ∈ history, TcpClient.Careful platform entry.before entry.event) →
      (TcpClient.transport platform).ClosesEachOnce history client) ∧
    (∀ history socket, Run (UdpSocket.transport platform).system history socket →
      (∀ entry ∈ history, UdpSocket.Careful platform entry.before entry.event) →
      (UdpSocket.transport platform).ClosesEachOnce history socket) ∧
    (∀ history serial, Run (SerialPort.transport platform).system history serial →
      (SerialPort.transport platform).ClosesEachOnce history serial) := by
  refine ⟨?_, ?_, ?_⟩
  · intro history client hrun hcareful
    exact (TcpClient.owner platform).closesEachOnce hrun hcareful
  · intro history socket hrun hcareful
    exact (UdpSocket.owner platform).closesEachOnce hrun hcareful
  · intro history serial hrun
    exact (SerialPort.owner platform).closesEachOnce hrun fun _ _ => trivial

/-- A client accepts and a socket is used, closed and used again, with the same numbers. -/
theorem handles_closed_once_example :
    (∃ history client, Run (TcpClient.transport .posix).system history client ∧
      client.connected = true ∧ (TcpClient.transport .posix).ClosesEachOnce history client) ∧
    (∃ history socket, Run (UdpSocket.transport .posix).system history socket ∧
      socket.isOpen = true ∧ (UdpSocket.transport .posix).ClosesEachOnce history socket) := by
  constructor
  · have hstart : Run (TcpClient.transport .posix).system [] (TcpClient.create 0) := .start ⟨0, rfl⟩
    have hopened := Transport.run_step hstart (.Open ⟨true, some 3, true⟩)
    have hrun := Transport.run_step hopened (.Listen true (some 4))
    refine ⟨_, _, hrun, rfl, (handles_closed_once .posix).1 _ _ hrun ?_⟩
    intro entry hmem
    simp only [List.nil_append, List.cons_append, List.mem_cons, List.not_mem_nil,
      or_false] at hmem
    rcases hmem with rfl | rfl
    · intro _ _
      rfl
    · trivial
  · have hstart : Run (UdpSocket.transport .posix).system [] (UdpSocket.create 0 0) :=
      .start ⟨0, 0, rfl⟩
    have hopened := Transport.run_step hstart (.Open ⟨true, some 3, true⟩)
    have hclosed := Transport.run_step hopened .Close
    have hrun := Transport.run_step hclosed (.Open ⟨true, some 3, true⟩)
    refine ⟨_, _, hrun, rfl, (handles_closed_once .posix).2.1 _ _ hrun ?_⟩
    intro entry hmem
    simp only [List.nil_append, List.cons_append, List.mem_cons, List.not_mem_nil,
      or_false] at hmem
    rcases hmem with rfl | rfl | rfl
    · intro _
      exact ⟨rfl, rfl⟩
    · trivial
    · intro _
      exact ⟨rfl, rfl⟩

/-- A client is closed and then destroyed, a socket is opened twice; and neither class
    closes what it got when `bind` fails. -/
theorem handles_not_always_closed_once :
    (¬ ∀ history client, Run (TcpClient.transport .posix).system history client →
      (TcpClient.transport .posix).ClosesEachOnce history client) ∧
    (¬ ∀ history socket, Run (UdpSocket.transport .posix).system history socket →
      (UdpSocket.transport .posix).ClosesEachOnce history socket) ∧
    (∃ history client, Run (TcpClient.transport .posix).system history client ∧
      history.map Entry.event = [.Open ⟨true, some 3, false⟩] ∧
      ¬ (TcpClient.transport .posix).ClosesEachOnce history client) ∧
    (∃ history socket, Run (UdpSocket.transport .posix).system history socket ∧
      history.map Entry.event = [.Open ⟨true, some 3, false⟩] ∧
      ¬ (UdpSocket.transport .posix).ClosesEachOnce history socket) := by
  have hclient : Run (TcpClient.transport .posix).system [] (TcpClient.create 0) :=
    .start ⟨0, rfl⟩
  have hsocket : Run (UdpSocket.transport .posix).system [] (UdpSocket.create 0 0) :=
    .start ⟨0, 0, rfl⟩
  refine ⟨?_, ?_, ?_, ?_⟩
  · intro hall
    have hopened := Transport.run_step hclient (.Open ⟨true, some 3, true⟩)
    have hclosed := hall _ _ (Transport.run_step hopened .Close)
    unfold Transport.ClosesEachOnce EachClosedOnce at hclosed
    exact absurd hclosed (by decide)
  · intro hall
    have hopened := Transport.run_step hsocket (.Open ⟨true, some 3, true⟩)
    have hreopened := hall _ _ (Transport.run_step hopened (.Open ⟨true, some 4, true⟩))
    unfold Transport.ClosesEachOnce EachClosedOnce at hreopened
    exact absurd hreopened (by decide)
  · refine ⟨_, _, Transport.run_step hclient (.Open ⟨true, some 3, false⟩), rfl, ?_⟩
    unfold Transport.ClosesEachOnce EachClosedOnce
    decide
  · refine ⟨_, _, Transport.run_step hsocket (.Open ⟨true, some 3, false⟩), rfl, ?_⟩
    unfold Transport.ClosesEachOnce EachClosedOnce
    decide

end Lame
