/-
  Lame/Session.lean
  =================
  **Sessions of the base station: refused presses and the receive loop.**

  A Go press may end without a new connection thread.  `refused_press_iff` says when such a
  press leaves mode, endpoint and session flag alone; the handler writes them before
  the checks that refuse, and clears the flag even when `StartConnection` refuses.

  The receive loop re-arms itself on a datagram but not on a `SocketException`, and
  the failure touches neither the flag nor later presses.  `listening_of_run` tells
  the runs in which a window with a session always listens from the others.
-/
import Lame.LabelledRuns
import Lame.MainWindow

namespace Lame

open ByteMemory LabelledRuns

namespace MainWindow

/-! ## 1. Refused presses -/

/-- What a running worker and the senders read. -/
structure SameSession (before after : MainWindow) : Prop where
  currentDriveMode : after.currentDriveMode = before.currentDriveMode
  robotPacketEndpoint : after.robotPacketEndpoint = before.robotPacketEndpoint
  isConnected : after.isConnected = before.isConnected

/-- The press starts no connection thread. -/
def Refused (window : MainWindow) (selectedIndex : Int) (addr : Option IPAddress) : Prop :=
  (window.goButtonClicked selectedIndex addr).window.connectionThread = window.connectionThread

def robotEndpoint (addr : IPAddress) : IPEndPoint := ⟨addr, PKT_PORT⟩

/-- The press starts a connection thread. -/
def Starts (window : MainWindow) (selectedIndex : Int) (addr : Option IPAddress) : Prop :=
  window.connectionThread = none ∧ (window.isConnected = true ∨ addr.isSome = true) ∧
    (getDriveMode selectedIndex window.currentDriveMode).1 = true

/-- The press has nothing to write: with a session the selection is no mode, without one
    the IP text is no address, or address and mode are those of the window. -/
def Harmless (window : MainWindow) (selectedIndex : Int) (addr : Option IPAddress) : Prop :=
  (window.isConnected = true ∧
    (getDriveMode selectedIndex window.currentDriveMode).1 = false) ∨
  (window.isConnected = false ∧ ∀ ip ∈ addr,
    window.robotPacketEndpoint = some (robotEndpoint ip) ∧
      (getDriveMode selectedIndex window.currentDriveMode).2 = window.currentDriveMode)

theorem startConnection_refuses {window : MainWindow} (h : window.connectionThread ≠ none) :
    window.startConnection = (false, window, [.alreadyConnecting]) := by
  rw [startConnection, if_pos h]

theorem startConnection_starts {window : MainWindow} (h : window.connectionThread = none) :
    window.startConnection =
      (true, { window with connectionThread := some .starting }, []) := by
  rw [startConnection, if_neg (not_not_intro h)]

/-- A mode that is refused is not written. -/
theorem getDriveMode_refused {selectedIndex : Int} {mode : DriveMode}
    (h : (getDriveMode selectedIndex mode).1 = false) :
    (getDriveMode selectedIndex mode).2 = mode := by
  unfold getDriveMode at h ⊢
  split
  · rfl
  · next hindex =>
    rw [if_neg hindex] at h
    split
    · rfl
    · next item hitem =>
      rw [hitem] at h
      dsimp only at h
      split at h
      · cases h
      · split at h
        · cases h
        · split at h
          · cases h
          · next hdirect hremote hai => rw [if_neg hdirect, if_neg hremote, if_neg hai]

/-- What a press does to the window, by what it finds. -/
inductive Pressed (window : MainWindow) (selectedIndex : Int) (addr : Option IPAddress) :
    MainWindow → Prop where
  | noMode (hconnected : window.isConnected = true)
      (hmode : (getDriveMode selectedIndex window.currentDriveMode).1 = false) :
      Pressed window selectedIndex addr window
  | updateRefused (hconnected : window.isConnected = true)
      (hmode : (getDriveMode selectedIndex window.currentDriveMode).1 = true)
      (halive : window.connectionThread ≠ none) :
      Pressed window selectedIndex addr { window with
        currentDriveMode := (getDriveMode selectedIndex window.currentDriveMode).2
        isConnected := false }
  | updateStarts (hconnected : window.isConnected = true)
      (hmode : (getDriveMode selectedIndex window.currentDriveMode).1 = true)
      (hdead : window.connectionThread = none) :
      Pressed window selectedIndex addr { window with
        currentDriveMode := (getDriveMode selectedIndex window.currentDriveMode).2
        isConnected := false
        connectionThread := some .starting }
  | noAddress (hidle : window.isConnected = false) (haddr : addr = none) :
      Pressed window selectedIndex addr window
  | noModeIdle {ip : IPAddress} (hidle : window.isConnected = false) (haddr : addr = some ip)
      (hmode : (getDriveMode selectedIndex window.currentDriveMode).1 = false) :
      Pressed window selectedIndex addr
        { window with robotPacketEndpoint := some (robotEndpoint ip) }
  | connectRefused {ip : IPAddress} (hidle : window.isConnected = false) (haddr : addr = some ip)
      (hmode : (getDriveMode selectedIndex window.currentDriveMode).1 = true)
      (halive : window.connectionThread ≠ none) :
      Pressed window selectedIndex addr { window with
        robotPacketEndpoint := some (robotEndpoint ip)
        currentDriveMode := (getDriveMode selectedIndex window.currentDriveMode).2 }
  | connectStarts {ip : IPAddress} (hidle : window.isConnected = false) (haddr : addr = some ip)
      (hmode : (getDriveMode selectedIndex window.currentDriveMode).1 = true)
      (hdead : window.connectionThread = none) :
      Pressed window selectedIndex addr { window with
        robotPacketEndpoint := some (robotEndpoint ip)
        currentDriveMode := (getDriveMode selectedIndex window.currentDriveMode).2
        connectionThread := some .starting }

theorem goButtonClicked_pressed (window : MainWindow) (selectedIndex : Int)
    (addr : Option IPAddress) :
    Pressed window selectedIndex addr (window.goButtonClicked selectedIndex addr).window := by
  unfold goButtonClicked
  cases hmode : (getDriveMode selectedIndex window.currentDriveMode).1 with
  | false =>
      have hkept := getDriveMode_refused hmode
      by_cases hconnected : window.isConnected = true
      · rw [if_pos hconnected]
        simp only [hmode, hkept]
        exact .noMode hconnected hmode
      · rw [if_neg hconnected]
        have hidle := Bool.eq_false_iff.mpr hconnected
        cases addr with
        | none => exact .noAddress hidle rfl
        | some ip =>
            simp only [hmode, hkept]
            exact .noModeIdle hidle rfl hmode
  | true =>
      by_cases hconnected : window.isConnected = true
      · rw [if_pos hconnected]
        simp only [hmode]
        by_cases hthread : window.connectionThread = none
        · rw [@startConnection_starts { window with currentDriveMode := _, isConnected := false }
            hthread]
          exact .updateStarts hconnected hmode hthread
        · rw [@startConnection_refuses { window with currentDriveMode := _, isConnected := false }
            hthread]
          exact .updateRefused hconnected hmode hthread
      · rw [if_neg hconnected]
        have hidle := Bool.eq_false_iff.mpr hconnected
        cases addr with
        | none => exact .noAddress hidle rfl
        | some ip =>
            simp only [hmode]
            by_cases hthread : window.connectionThread = none
            · rw [@startConnection_starts { window with
                robotPacketEndpoint := some ⟨ip, PKT_PORT⟩
                currentDriveMode := (getDriveMode selectedIndex window.currentDriveMode).2 }
                hthread]
              exact .connectStarts hidle rfl hmode hthread
            · rw [@startConnection_refuses { window with
                robotPacketEndpoint := some ⟨ip, PKT_PORT⟩
                currentDriveMode := (getDriveMode selectedIndex window.currentDriveMode).2 }
                hthread]
              exact .connectRefused hidle rfl hmode hthread

theorem Pressed.receiving {window after : MainWindow} {selectedIndex : Int}
    {addr : Option IPAddress} (h : Pressed window selectedIndex addr after) :
    after.receiving = window.receiving := by
  cases h <;> rfl

theorem SameSession.refl (window : MainWindow) : window.SameSession window :=
  ⟨rfl, rfl, rfl⟩

/-- Without a session, an address and a mode that the window has already are no news. -/
theorem harmless_of_known {window : MainWindow} {selectedIndex : Int} {addr : Option IPAddress}
    {ip : IPAddress} (hidle : window.isConnected = false) (haddr : addr = some ip)
    (hendpoint : some (robotEndpoint ip) = window.robotPacketEndpoint)
    (hselected : (getDriveMode selectedIndex window.currentDriveMode).2 =
      window.currentDriveMode) : window.Harmless selectedIndex addr := by
  refine .inr ⟨hidle, ?_⟩
  intro known hknown
  obtain rfl := Option.some.inj (haddr.symm.trans hknown)
  exact ⟨hendpoint.symm, hselected⟩

/-- **Refused presses.**  A press that starts no thread leaves mode, endpoint and flag
    alone exactly when it starts one after all or has nothing to write. -/
theorem refused_press_iff (window : MainWindow) (selectedIndex : Int) (addr : Option IPAddress) :
    (window.Refused selectedIndex addr →
      window.SameSession (window.goButtonClicked selectedIndex addr).window) ↔
    window.Starts selectedIndex addr ∨ window.Harmless selectedIndex addr := by
  have hpressed := goButtonClicked_pressed window selectedIndex addr
  unfold Refused
  generalize (window.goButtonClicked selectedIndex addr).window = after at hpressed
  cases hpressed with
  | noMode hconnected hmode =>
      apply iff_of_true
      · intro _
        exact .refl window
      · exact .inr (.inl ⟨hconnected, hmode⟩)
  | noAddress hidle haddr =>
      apply iff_of_true
      · intro _
        exact .refl window
      · refine .inr (.inr ⟨hidle, ?_⟩)
        intro ip hip
        rw [haddr] at hip
        cases hip
  | noModeIdle hidle haddr hmode =>
      have hkept := getDriveMode_refused hmode
      constructor
      · intro h
        obtain ⟨-, hendpoint, -⟩ := h rfl
        exact .inr (harmless_of_known hidle haddr hendpoint hkept)
      · intro h _
        rcases h with ⟨-, -, hstarts⟩ | ⟨hconnected, -⟩ | ⟨-, hharmless⟩
        · exact absurd (hmode.symm.trans hstarts) (by decide)
        · exact absurd (hidle.symm.trans hconnected) (by decide)
        · exact ⟨rfl, (hharmless _ haddr).1.symm, rfl⟩
  | updateStarts hconnected hmode hdead =>
      apply iff_of_true
      · intro hrefused
        rw [hdead] at hrefused
        cases hrefused
      · exact .inl ⟨hdead, .inl hconnected, hmode⟩
  | connectStarts hidle haddr hmode hdead =>
      apply iff_of_true
      · intro hrefused
        rw [hdead] at hrefused
        cases hrefused
      · exact .inl ⟨hdead, .inr (by rw [haddr]; rfl), hmode⟩
  | updateRefused hconnected hmode halive =>
      apply iff_of_false
      · intro h
        have hflag : false = true := (h rfl).isConnected.trans hconnected
        cases hflag
      · rintro (⟨hdead, -⟩ | ⟨-, hrefused⟩ | ⟨hidle, -⟩)
        · exact halive hdead
        · exact absurd (hrefused.symm.trans hmode) (by decide)
        · exact absurd (hidle.symm.trans hconnected) (by decide)
  | connectRefused hidle haddr hmode halive =>
      constructor
      · intro h
        obtain ⟨hselected, hendpoint, -⟩ := h rfl
        exact .inr (harmless_of_known hidle haddr hendpoint hselected)
      · intro h _
        rcases h with ⟨hdead, -⟩ | ⟨hconnected, -⟩ | ⟨-, hharmless⟩
        · exact absurd hdead halive
        · exact absurd (hidle.symm.trans hconnected) (by decide)
        · obtain ⟨hendpoint, hselected⟩ := hharmless _ haddr
          exact ⟨hselected, hendpoint.symm, rfl⟩

/-- A press with the address `10.0.0.10` starts the connection thread; a second one with
    `10.0.0.11` is refused, but the running thread then sends there. -/
theorem refused_press_redirects : ¬ ∀ (window : MainWindow) (selectedIndex : Int)
    (addr : Option IPAddress), window.Refused selectedIndex addr →
      window.SameSession (window.goButtonClicked selectedIndex addr).window := by
  intro hall
  let window := (create.goButtonClicked 0 (some (.v4 0x0A00000A))).window
  have hrefused : window.Refused 0 (some (.v4 0x0A00000B)) := by
    unfold Refused
    decide
  have hendpoint := (hall window 0 (some (.v4 0x0A00000B)) hrefused).robotPacketEndpoint
  exact absurd hendpoint (by decide)

/-! ## 2. The receive loop -/

/-- What happens to the window after start-up, as far as its connection is concerned. -/
inductive SessionEvent where
  | received (buffer : List UInt8) (now : Int)
  | receiveFailed
  | goClicked (selectedIndex : Int) (addr : Option IPAddress)
  | worker
deriving DecidableEq, Repr

/-- A completion needs an outstanding receive, a step of the worker needs a worker. -/
inductive SessionStep (window : MainWindow) : SessionEvent → MainWindow → List Log → Prop where
  | received {buffer : List UInt8} {now : Int} {result : WindowStep}
      (hreceiving : window.receiving = true)
      (hresult : window.packetReceiveCallback buffer now = .ok result) :
      SessionStep window (.received buffer now) result.window result.logs
  | receiveFailed (hreceiving : window.receiving = true) :
      SessionStep window .receiveFailed window.receiveFailed.window window.receiveFailed.logs
  | goClicked {selectedIndex : Int} {addr : Option IPAddress} :
      SessionStep window (.goClicked selectedIndex addr)
        (window.goButtonClicked selectedIndex addr).window
        (window.goButtonClicked selectedIndex addr).logs
  | worker {worker : Worker} {result : WindowStep}
      (hthread : window.connectionThread = some worker)
      (hresult : window.connectingWorker worker = .ok result) :
      SessionStep window .worker result.window result.logs

def sessionSystem : System MainWindow SessionEvent Log where
  Initial := (· = create)
  Step := SessionStep

abbrev SessionRecord := Entry MainWindow SessionEvent Log

/-- A window with a session or a worker has an outstanding receive. -/
def Listening (window : MainWindow) : Prop :=
  window.isConnected = true ∨ window.connectionThread ≠ none → window.receiving = true

/-- The step does not meet the receive loop's error path: a receive fails without a
    session only, and behind the failure no press starts a worker. -/
def Tolerated (window : MainWindow) : SessionEvent → Prop
  | .receiveFailed => window.isConnected = false
  | .goClicked selectedIndex addr =>
      window.receiving = true ∨ ¬ window.Starts selectedIndex addr
  | .received _ _ | .worker => True

/-- **One step** of a listening window goes on listening exactly when it is tolerated. -/
theorem listening_step {before after : MainWindow} {event : SessionEvent} {logs : List Log}
    (hbefore : before.Listening) (hstep : SessionStep before event after logs) :
    after.Listening ↔ before.Tolerated event := by
  cases hstep with
  | received hreceiving hresult =>
      apply iff_of_true
      · intro _
        obtain ⟨-, -, hkept, -⟩ := packetReceiveCallback_spec hresult
        exact hkept.trans hreceiving
      · trivial
  | worker hthread hresult =>
      apply iff_of_true
      · intro _
        obtain ⟨-, -, hkept, -⟩ := connectingWorker_spec hthread hresult
        rw [hkept]
        exact hbefore (.inr (by rw [hthread]; exact Option.some_ne_none _))
      · trivial
  | receiveFailed hreceiving =>
      constructor
      · intro hlistening
        by_contra hconnected
        have hdeaf := hlistening (.inl (Bool.not_eq_false _ ▸ hconnected))
        cases hdeaf
      · intro hidle hsession
        rcases hsession with hconnected | hthread
        · exact absurd (hidle.symm.trans hconnected) (by decide)
        · exact absurd rfl hthread
  | @goClicked selectedIndex addr =>
      have hpressed := goButtonClicked_pressed before selectedIndex addr
      generalize (before.goButtonClicked selectedIndex addr).window = after at hpressed
      by_cases hreceiving : before.receiving = true
      · apply iff_of_true
        · intro _
          exact hpressed.receiving.trans hreceiving
        · exact .inl hreceiving
      · -- a deaf window has no session and no worker, so only a new worker matters
        have hidle : before.isConnected ≠ true := fun h => hreceiving (hbefore (.inl h))
        have hthread : before.connectionThread = none :=
          not_not.mp fun h => hreceiving (hbefore (.inr h))
        have htolerated : before.Tolerated (.goClicked selectedIndex addr) ↔
            ¬ before.Starts selectedIndex addr := or_iff_right hreceiving
        rw [htolerated]
        cases hpressed with
        | noMode hconnected | updateRefused hconnected | updateStarts hconnected =>
            exact absurd hconnected hidle
        | connectRefused _ _ _ halive => exact absurd hthread halive
        | noAddress _ haddr =>
            apply iff_of_true hbefore
            rintro ⟨-, hconnected | hsome, -⟩
            · exact hidle hconnected
            · rw [haddr] at hsome
              cases hsome
        | noModeIdle _ _ hmode =>
            apply iff_of_true hbefore
            rintro ⟨-, -, hstarts⟩
            exact absurd (hmode.symm.trans hstarts) (by decide)
        | connectStarts _ haddr hmode =>
            apply iff_of_false
            · intro hlistening
              exact hreceiving (hlistening (.inr (Option.some_ne_none _)))
            · intro hstays
              exact hstays ⟨hthread, .inr (by rw [haddr]; rfl), hmode⟩

/-- **The base station listens while it has a session** in every state of a run exactly
    when every step of the run is tolerated. -/
theorem listening_of_run {history : List SessionRecord} {window : MainWindow}
    (hrun : Run sessionSystem history window) :
    (∀ record ∈ history, record.after.Listening) ↔
      ∀ record ∈ history, record.before.Tolerated record.event := by
  apply hrun.forall_good_iff
  · rintro _ rfl _
    rfl
  · intro before event after logs hbefore hstep
    exact listening_step hbefore hstep

/-- A press with an address and "Remote Drive" selected, then a failing receive is not
    tolerated any more but a datagram is. -/
theorem listening_of_run_example : ∃ (history : List SessionRecord) (window : MainWindow),
    Run sessionSystem history window ∧ window.connectionThread = some (.looping true false) ∧
      ∀ record ∈ history, record.after.Listening := by
  have hstart : Run sessionSystem [] create := .start rfl
  have hgo := hstart.step (@SessionStep.goClicked _ 0 (some (.v4 0x0A00000A)))
  have hworker := hgo.step (@SessionStep.worker _ .starting _ rfl rfl)
  refine ⟨_, _, hworker, rfl, (listening_of_run hworker).mpr ?_⟩
  intro record hmem
  simp only [List.nil_append, List.cons_append, List.mem_cons, List.not_mem_nil,
    or_false] at hmem
  rcases hmem with rfl | rfl
  · exact .inl rfl
  · trivial

/-- A receive fails before the first session; the next press starts a worker that can
    hear no answer. -/
theorem not_always_listening : ¬ ∀ (history : List SessionRecord) (window : MainWindow),
    Run sessionSystem history window → window.Listening := by
  intro hall
  have hstart : Run sessionSystem [] create := .start rfl
  have hfailed := hstart.step (.receiveFailed rfl)
  have hgo := hfailed.step (@SessionStep.goClicked _ 0 (some (.v4 0x0A00000A)))
  have hdeaf := hall _ _ hgo (.inr (by decide))
  exact absurd hdeaf (by decide)

end MainWindow

end Lame
