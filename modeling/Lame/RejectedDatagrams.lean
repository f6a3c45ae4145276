/-
  Lame/RejectedDatagrams.lean
  ===========================
  **What a datagram that is not a packet does to the robot.**

  `ReceivePacketsFromUdp` continues with the next datagram when `ReadPacketHeader`
  refuses the one at hand or its opcode has no `case`.  By then it has already
  stored the sender in `baseStationAddr`, unless the sender is the AI; the AI's
  own bookkeeping waits for a valid heartbeat.  So a rejected datagram is without
  effect exactly when its sender is the AI or was the base station before.
-/
import Lame.NonInterference

namespace Lame

open ByteMemory LabelledRuns

namespace Robot

/-- `ReadPacketHeader` returns 0 on what the socket delivers of the datagram, or hands
    out an opcode that has no `case`. -/
def Rejects (robot : Robot) (datagram : List UInt8) : Prop :=
  ∃ header,
    readPacketHeader (delivered datagram ++ robot.cellsBehind datagram)
      (UInt8.ofNat (delivered datagram).length) 0 none = .ok header ∧
    (header.ret = 0 ∨ header.opcode ∉ HANDLED_OPCODES)

theorem rejects_iff (robot : Robot) (datagram : List UInt8) :
    robot.Rejects datagram ↔
      ∀ opcode ∈ requestedOpcode datagram, opcode ∉ HANDLED_OPCODES := by
  cases hop : requestedOpcode datagram with
  | none =>
      constructor
      · intro _ opcode hmem
        cases hmem
      · intro _
        exact ⟨_, readPacketHeader_refused _ hop, .inl rfl⟩
  | some opcode =>
      obtain ⟨hread, hret, hopcode⟩ :=
        readPacketHeader_accepted (robot.cellsBehind datagram) hop
      constructor
      · rintro ⟨header, hheader, hrejected⟩ known hmem
        obtain rfl := Except.ok.inj (hread.symm.trans hheader)
        rw [← Option.some.inj hmem, ← hopcode]
        exact hrejected.resolve_left hret
      · intro hunknown
        exact ⟨_, hread, .inr (by rw [hopcode]; exact hunknown opcode rfl)⟩

theorem rejects_of_refused (robot : Robot) {datagram : List UInt8}
    (hop : requestedOpcode datagram = none) : robot.Rejects datagram := by
  rw [rejects_iff, hop]
  intro opcode hmem
  cases hmem

theorem rejects_of_unknown (robot : Robot) {datagram : List UInt8} {opcode : UInt8}
    (hop : requestedOpcode datagram = some opcode) (hunknown : opcode ∉ HANDLED_OPCODES) :
    robot.Rejects datagram := by
  rw [rejects_iff, hop]
  intro known hmem
  rwa [← Option.some.inj hmem]

variable (imencode : Mat → Nat → Option (List UInt8))

/-- The iteration changes no field but the receive buffer and sends nothing. -/
def ChangesNothing (robot : Robot) (datagram : List UInt8) (addr : SockAddr)
    (leftovers : Leftovers) (link : ImageLink) : Prop :=
  ∃ next, receivePacketsFromUdp imencode robot datagram addr leftovers link =
    .ok (next, []) ∧ robot.Agree next

/-- **Rejected datagrams**: in every reachable state one is without effect exactly when
    it comes from the AI or from the address the robot already has for the base
    station. -/
theorem changesNothing_iff (threads : List Thread) (robot : Robot)
    (hreach : Reachable (system imencode threads) robot) (datagram : List UInt8)
    (hrejected : robot.Rejects datagram) (addr : SockAddr) (leftovers : Leftovers)
    (link : ImageLink) :
    robot.ChangesNothing imencode datagram addr leftovers link ↔
      robot.isFromAi addr = true ∨ robot.baseStationAddr = some addr := by
  obtain ⟨history, hrun⟩ := hreach
  obtain ⟨next, outputs, cells, hreceive, -, hhandles⟩ := receivePacketsFromUdp_spec imencode
    robot (running_of_run hrun).buffer datagram addr leftovers link
  obtain ⟨rfl, rfl⟩ := hhandles.of_ignored ((robot.rejects_iff datagram).mp hrejected)
  constructor
  · rintro ⟨after, hafter, hagree⟩
    obtain ⟨rfl, -⟩ := Prod.mk.inj (Except.ok.inj (hreceive.symm.trans hafter))
    have hbase : (robot.heardFrom addr).baseStationAddr = robot.baseStationAddr :=
      hagree.baseStationAddr_eq
    cases hai : robot.isFromAi addr with
    | true => exact .inl rfl
    | false =>
        rw [heardFrom, if_neg (by rw [hai]; decide)] at hbase
        exact .inr hbase.symm
  · intro hknown
    refine ⟨_, hreceive, ?_⟩
    have hheard : robot.heardFrom addr = robot := by
      rw [heardFrom]
      split
      · rfl
      · next hai => rw [← hknown.resolve_left hai]
    rw [hheard]
    rfl

/-- A started robot, a packet with an unknown opcode, sent by the AI. -/
theorem changesNothing_iff_ai :
    ({ create 6000 0 with isRunning := true } : Robot).ChangesNothing (fun _ _ => none)
      Message.aiInit.frame ⟨AF_INET, INADDR_LOOPBACK, 6000⟩ ⟨ZERO_DRIVE, ⟨0⟩⟩ ⟨true, true⟩ :=
  (changesNothing_iff (fun _ _ => none) startedThreads _
    ⟨[], Run.start (started_create 6000 0)⟩ Message.aiInit.frame
    (rejects_of_unknown _ (Message.requestedOpcode_frame rfl) (by decide)) _ _ _).mpr
    (.inl (by decide))

/-- An empty datagram makes its sender the base station. -/
theorem not_changesNothing_empty :
    ¬ ∀ (imencode : Mat → Nat → Option (List UInt8)) (robot : Robot),
      Reachable (system imencode startedThreads) robot → ∀ datagram, robot.Rejects datagram →
      ∀ addr leftovers link, robot.ChangesNothing imencode datagram addr leftovers link := by
  intro hclaim
  obtain ⟨next, hreceive, hagree⟩ := hclaim (fun _ _ => none) _
    ⟨[], Run.start (started_create 6000 0)⟩ [] (rejects_of_refused _ (by decide)) BASE_STATION
    ⟨ZERO_DRIVE, ⟨0⟩⟩ ⟨true, true⟩
  rw [receive_refused _ _ _ _ _ (by decide)] at hreceive
  obtain ⟨rfl, -⟩ := Prod.mk.inj (Except.ok.inj hreceive)
  exact absurd hagree.baseStationAddr_eq (by decide)

end Robot

end Lame
