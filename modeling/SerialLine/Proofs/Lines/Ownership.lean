import SerialLine.Proofs.Lines.Creation
import SerialLine.Uart.Calls
/-! # Exclusive ownership of pins

Any number of devices share a registry. Devices are made, called, used in sessions and dropped in any
order, and whatever happens elsewhere does not reach the registry.

* `pinsKept_perform`, `pinsGiven_shutDown`: of all calls only the first shutdown of a line touches the
  registry, and it gives back the pins of that line.
* `Owns`: the invariant. The claimed pins are those of the live devices, each counted once, and a live
  line still knows its own pins.
* `Owns.step`, `Owns.run`: one step and whole runs.
* `run_owns_exclusively`: what a user of the devices sees of it.
-/
set_option autoImplicit false

namespace SerialLine

variable {σ : Type}

/-! ## What a call does to the pins -/

namespace Uart

variable {u : Uart} {d : Driver σ} {p : Platform σ} {w : World σ}

/-- The end of a call after which the registry and the pins of the line are what they were. -/
def PinsKept {α : Type} (u : Uart) (w : World σ) : EStateM.Result Halt (World σ) (α × Uart) → Prop
  | .ok (_, u') w' => w'.pins = w.pins ∧ u'.pins = u.pins ∧ u'.isShut = u.isShut
  | .error _ w' => w'.pins = w.pins

theorem pinsKept_pure {α : Type} (a : α) : PinsKept u w (.ok (a, u) w) := ⟨rfl, rfl, rfl⟩

theorem pinsKept_benchAct {α β : Type} (act : Act (Bench σ) β) (answer : β → α) :
    PinsKept u w ((do return (answer (← World.benchAct act), u) : Act (World σ) (α × Uart)) w) := by
  simp only [World.benchAct, Act.onPart, bind, EStateM.bind]
  cases act w.bench with
  | ok a b => exact ⟨rfl, rfl, rfl⟩
  | error e b => rfl

theorem pinsKept_benchDo {α β : Type} (f : StateM (Bench σ) β) (answer : β → α) :
    PinsKept u w ((do return (answer (← (World.benchDo f : StateM (World σ) β)), u) :
      Act (World σ) (α × Uart)) w) := ⟨rfl, rfl, rfl⟩

theorem setBaudrate_of_live (h : u.isShut = false) (d : Driver σ) (rate : UInt32) (b : Bench σ) :
    (∃ e, u.setBaudrate d rate b = (.error e, b)) ∨
      (∃ e b', d.setBaudrate rate b = (.error e, b') ∧ u.setBaudrate d rate b = (.error e, b')) ∨
      ∃ b', d.setBaudrate rate b = (.ok (), b') ∧ u.setBaudrate d rate b =
        (.ok { u with baudrate := rate }, (logNote (W := Bench σ) .debug
          s!"UART: baudrate {u.baudrate.toNat} -> {rate.toNat}" b').2) := by
  simp only [setBaudrate, h, Bool.false_eq_true, if_false]
  cases Config.checkBaudrate rate with
  | error e => exact .inl ⟨e, rfl⟩
  | ok _ =>
    rcases hset : d.setBaudrate rate b with ⟨reply, b'⟩
    cases reply with
    | error e =>
      refine .inr (.inl ⟨e, b', rfl, ?_⟩)
      simp only [bind, StateT.bind, hset]
      rfl
    | ok _ =>
      refine .inr (.inr ⟨b', rfl, ?_⟩)
      simp only [bind, StateT.bind, hset]
      rfl

theorem setBaudrate_ok {rate : UInt32} {b b' : Bench σ} {u' : Uart}
    (h : u.setBaudrate d rate b = (.ok u', b')) : u' = { u with baudrate := rate } := by
  by_cases hshut : u.isShut = true
  · simp only [setBaudrate, hshut, if_true] at h
    cases h
  · rcases setBaudrate_of_live (Bool.eq_false_iff.mpr hshut) d rate b with
      ⟨e, heq⟩ | ⟨e, b₁, -, heq⟩ | ⟨b₁, -, heq⟩
    · rw [heq] at h
      cases h
    · rw [heq] at h
      cases h
    · rw [heq] at h
      cases h
      rfl

theorem setTimeout_ok {timeout : Binary32} {u' : Uart} (h : u.setTimeout timeout = .ok u') :
    u' = { u with timeout := timeout } := by
  simp only [setTimeout, checkLive, bind, Except.bind] at h
  split_ifs at h
  cases htime : Timeout.check timeout with
  | error e =>
    rw [htime] at h
    cases h
  | ok _ =>
    rw [htime] at h
    cases h
    rfl

theorem pinsKept_settled {result : Except Error Uart} {w' : World σ} (hw : w'.pins = w.pins)
    (h : ∀ u', result = .ok u' → u'.pins = u.pins ∧ u'.isShut = u.isShut) :
    PinsKept u w (.ok (u.settled result) w') := by
  cases result with
  | ok u' => exact ⟨hw, h u' rfl⟩
  | error e => exact ⟨hw, rfl, rfl⟩

/-- A call other than shutdown keeps the pins, whether it answers or never ends. -/
theorem pinsKept_perform {call : Call} (h : call ≠ .shutDown) :
    PinsKept u w (u.perform d p call w) := by
  cases call with
  | read room => exact pinsKept_benchAct _ _
  | write data => exact pinsKept_benchAct _ _
  | flush => exact pinsKept_benchAct _ _
  | poll flags => exact pinsKept_benchDo _ _
  | control request => exact pinsKept_benchAct _ _
  | getBaudrate => exact pinsKept_pure _
  | setBaudrate rate =>
    refine pinsKept_settled rfl fun u' hu => ?_
    rw [setBaudrate_ok (Prod.ext hu rfl : u.setBaudrate d rate w.bench = (.ok u', _))]
    exact ⟨rfl, rfl⟩
  | getTimeout => exact pinsKept_pure _
  | setTimeout timeout =>
    refine pinsKept_settled rfl fun u' hu => ?_
    rw [setTimeout_ok hu]
    exact ⟨rfl, rfl⟩
  | waitingCount => exact pinsKept_benchDo _ _
  | discardInput => exact pinsKept_benchDo _ _
  | droppedCount => exact pinsKept_benchDo _ _
  | takeDropped => exact pinsKept_benchDo _ _
  | shutDown => exact absurd rfl h

/-- A line that has been shut down is left alone by further shutdowns. -/
theorem shutDown_of_shut (h : u.isShut = true) : u.shutDown d p w = .ok u w := by
  simp only [shutDown, h, if_true]
  rfl

/-- The first shutdown gives back the pins of the line, or never ends and gives back none. -/
theorem shutDown_of_live (h : u.isShut = false) :
    (∃ b, u.shutDown d p w = .ok u.shut ⟨w.pins.releaseAll u.pins, b⟩) ∨
      ∃ e b, u.shutDown d p w = .error e ⟨w.pins, b⟩ := by
  simp only [shutDown, h, Bool.false_eq_true, if_false, World.benchAct, Act.onPart, bind,
    EStateM.bind]
  cases u.windDown d p w.bench with
  | ok a b => exact .inl ⟨_, rfl⟩
  | error e b => exact .inr ⟨e, b, rfl⟩

end Uart

/-! ## Devices that share a registry -/

/-- A line with its peripheral, its platform and the configuration that it was made from. -/
structure Device (σ : Type) where
  driver : Driver σ
  platform : Platform σ
  config : Config
  uart : Uart

/-- The pins that a device is entitled to: those it was made from until it is shut down. -/
def Device.held (dev : Device σ) : List Pin :=
  if dev.uart.isShut then [] else dev.config.pins

/-- A world and the devices made in it that have not been dropped. -/
structure Fleet (σ : Type) where
  world : World σ
  devices : List (Device σ) := []

/-- Something that happens to a fleet. Devices go by their place in the list. -/
inductive FleetStep (σ : Type) where
  | create (driver : Driver σ) (platform : Platform σ) (config : Config)
  | call (i : Nat) (call : Uart.Call)
  /-- A session of the device comes to its end; what was done in it were calls. -/
  | endSession (i : Nat)
  | drop (i : Nat)
  /-- Something that does not concern the registry. -/
  | elsewhere (f : Bench σ → Bench σ)

namespace Fleet

def held (f : Fleet σ) : List Pin := f.devices.flatMap Device.held

/-- The fleet after a device was used: a use that never ends leaves the line as it was. -/
def used {α : Type} (f : Fleet σ) (i : Nat) (dev : Device σ) :
    EStateM.Result Halt (World σ) (α × Uart) → Fleet σ
  | .ok (_, u) w => ⟨w, f.devices.set i { dev with uart := u }⟩
  | .error _ w => ⟨w, f.devices⟩

/-- The fleet after a device was shut down in order to drop it. -/
def dropped (f : Fleet σ) (i : Nat) : EStateM.Result Halt (World σ) Uart → Fleet σ
  | .ok _ w => ⟨w, f.devices.eraseIdx i⟩
  | .error _ w => ⟨w, f.devices⟩

def step (f : Fleet σ) : FleetStep σ → Fleet σ
  | .create d p c =>
    match Uart.create d c f.world with
    | (.ok u, w) => ⟨w, f.devices ++ [⟨d, p, c, u⟩]⟩
    | (.error _, w) => ⟨w, f.devices⟩
  | .call i call =>
    match f.devices[i]? with
    | some dev => f.used i dev (dev.uart.perform dev.driver dev.platform call f.world)
    | none => f
  | .endSession i =>
    match f.devices[i]? with
    | some dev =>
      f.used i dev ((do return ((), ← dev.uart.shutDown dev.driver dev.platform) :
        Act (World σ) (Unit × Uart)) f.world)
    | none => f
  | .drop i =>
    match f.devices[i]? with
    | some dev => f.dropped i (dev.uart.shutDown dev.driver dev.platform f.world)
    | none => f
  | .elsewhere g => { f with world := { f.world with bench := g f.world.bench } }

def run (f : Fleet σ) (steps : List (FleetStep σ)) : Fleet σ := steps.foldl step f

/-- What holds between any two steps. -/
structure Owns (f : Fleet σ) : Prop where
  claims : f.world.pins.ClaimsExactly f.held
  own : ∀ dev ∈ f.devices, dev.uart.isShut = false → dev.uart.pins = dev.config.pins

end Fleet

/-! ## One step -/

/-- A list around the place of one of its elements. -/
theorem exists_split_of_getElem? {α : Type} {l : List α} {i : Nat} {a : α} (h : l[i]? = some a) :
    ∃ before after, l = before ++ a :: after ∧ l.eraseIdx i = before ++ after ∧
      ∀ a', l.set i a' = before ++ a' :: after := by
  obtain ⟨hlt, rfl⟩ := List.getElem?_eq_some_iff.mp h
  refine ⟨l.take i, l.drop (i + 1), ?_, List.eraseIdx_eq_take_drop_succ l i, fun a' => ?_⟩
  · rw [List.getElem_cons_drop, List.take_append_drop]
  · rw [List.set_eq_take_append_cons_drop, if_pos hlt]

namespace Fleet

variable {f : Fleet σ}

theorem held_around (w : World σ) (before after : List (Device σ)) (dev : Device σ) :
    held ⟨w, before ++ dev :: after⟩ =
      before.flatMap Device.held ++ dev.held ++ after.flatMap Device.held := by
  simp [held]

theorem Owns.create (h : f.Owns) (d : Driver σ) (p : Platform σ) (c : Config) :
    (f.step (.create d p c)).Owns := by
  rw [step]
  rcases hmade : Uart.create d c f.world with ⟨result, w⟩
  cases result with
  | error e =>
    refine ⟨?_, h.own⟩
    rw [Uart.create_error_pins hmade]
    exact h.claims
  | ok u =>
    obtain ⟨-, hclaim, ring, b, -, hprog, -⟩ := Uart.create_ok hmade
    obtain ⟨id, rfl⟩ := Uart.program_ok_config hprog
    refine ⟨?_, fun dev hmem hlive => ?_⟩
    · simpa [held, Device.held, Uart.ofConfig] using h.claims.claimAll hclaim
    · rcases List.mem_append.mp hmem with hold | hnew
      · exact h.own dev hold hlive
      · rw [List.mem_singleton.mp hnew]
        rfl

theorem Owns.used {α : Type} (h : f.Owns) {i : Nat} {dev : Device σ} (hdev : f.devices[i]? = some dev)
    {result : EStateM.Result Halt (World σ) (α × Uart)}
    (hkept : dev.uart.PinsKept f.world result) : (f.used i dev result).Owns := by
  cases result with
  | error e w =>
    refine ⟨?_, h.own⟩
    rw [Fleet.used, (hkept : w.pins = f.world.pins)]
    exact h.claims
  | ok answer w =>
    obtain ⟨a, u⟩ := answer
    obtain ⟨hw, hpins, hshut⟩ := (hkept : w.pins = f.world.pins ∧ _)
    obtain ⟨before, after, hsplit, -, hset⟩ := exists_split_of_getElem? hdev
    have hheld : held ⟨w, before ++ { dev with uart := u } :: after⟩ = f.held := by
      rw [held_around, held, hsplit]
      simp [Device.held, hshut]
    rw [Fleet.used, hset]
    refine ⟨?_, fun other hmem hlive => ?_⟩
    · rw [hheld, hw]
      exact h.claims
    · rcases List.mem_append.mp hmem with hmem | hmem
      · exact h.own other (by simp [hsplit, hmem]) hlive
      · rcases List.mem_cons.mp hmem with rfl | hmem
        · have hold := h.own dev (by simp [hsplit]) (hshut ▸ hlive)
          exact hpins.trans hold
        · exact h.own other (by simp [hsplit, hmem]) hlive

/-- Shutting a device down, to keep it or to drop it, takes its pins out of the account. -/
theorem Owns.shut (h : f.Owns) {dev : Device σ} {before after : List (Device σ)}
    (gone : List (Device σ)) (b : Bench σ) (hsplit : f.devices = before ++ dev :: after)
    (hlive : dev.uart.isShut = false) (hgone : gone.flatMap Device.held = [])
    (hown : ∀ dev ∈ gone, dev.uart.isShut = true) :
    Owns ⟨⟨f.world.pins.releaseAll dev.uart.pins, b⟩, before ++ gone ++ after⟩ := by
  have hclaims := h.claims
  have hheld : dev.held = dev.config.pins := by simp [Device.held, hlive]
  obtain ⟨world, devices⟩ := f
  subst hsplit
  rw [held_around, hheld, ← h.own dev (by simp) hlive] at hclaims
  refine ⟨?_, fun other hmem hother => ?_⟩
  · have hrest := hclaims.releaseAll
    simpa [held, hgone] using hrest
  · simp only [List.mem_append] at hmem
    rcases hmem with (hmem | hmem) | hmem
    · exact h.own other (by simp [hmem]) hother
    · rw [hown other hmem] at hother
      cases hother
    · exact h.own other (by simp [hmem]) hother

/-- A device that is shut down by a call or at the end of a session stays in the fleet. -/
theorem Owns.usedShut {α : Type} (h : f.Owns) {i : Nat} {dev : Device σ}
    (hdev : f.devices[i]? = some dev) (a : α) :
    (f.used i dev ((do return (a, ← dev.uart.shutDown dev.driver dev.platform) :
      Act (World σ) (α × Uart)) f.world)).Owns := by
  by_cases hshut : dev.uart.isShut = true
  · apply h.used hdev
    simp only [bind, EStateM.bind, Uart.shutDown_of_shut hshut]
    exact Uart.pinsKept_pure a
  · have hlive := Bool.eq_false_iff.mpr hshut
    rcases Uart.shutDown_of_live (d := dev.driver) (p := dev.platform) (w := f.world) hlive with
      ⟨b, hdone⟩ | ⟨e, b, hhalt⟩
    · obtain ⟨before, after, hsplit, -, hset⟩ := exists_split_of_getElem? hdev
      simp only [bind, EStateM.bind, hdone, pure, EStateM.pure, Fleet.used, hset]
      have hnext := h.shut [{ dev with uart := dev.uart.shut }] b hsplit hlive rfl
        (fun other hmem => by rw [List.mem_singleton.mp hmem]; rfl)
      simpa using hnext
    · simp only [bind, EStateM.bind, hhalt]
      exact ⟨h.claims, h.own⟩

/-- A device that is dropped is shut down if that has not been done. -/
theorem Owns.drop (h : f.Owns) {i : Nat} {dev : Device σ} (hdev : f.devices[i]? = some dev) :
    (f.dropped i (dev.uart.shutDown dev.driver dev.platform f.world)).Owns := by
  obtain ⟨before, after, hsplit, herase, -⟩ := exists_split_of_getElem? hdev
  by_cases hshut : dev.uart.isShut = true
  · rw [Uart.shutDown_of_shut hshut, dropped, herase]
    have hheld : held ⟨f.world, before ++ after⟩ = f.held := by
      rw [held, held, hsplit]
      simp [Device.held, hshut]
    refine ⟨?_, fun other hmem => h.own other ?_⟩
    · rw [hheld]
      exact h.claims
    · rw [hsplit]
      rcases List.mem_append.mp hmem with hmem | hmem
      · exact List.mem_append_left _ hmem
      · exact List.mem_append_right _ (List.mem_cons_of_mem _ hmem)
  · have hlive := Bool.eq_false_iff.mpr hshut
    rcases Uart.shutDown_of_live (d := dev.driver) (p := dev.platform) (w := f.world) hlive with
      ⟨b, hdone⟩ | ⟨e, b, hhalt⟩
    · rw [hdone, dropped, herase]
      have hnext := h.shut [] b hsplit hlive rfl (fun other hmem => by cases hmem)
      simpa using hnext
    · rw [hhalt, dropped]
      exact ⟨h.claims, h.own⟩

theorem Owns.step (h : f.Owns) (s : FleetStep σ) : (f.step s).Owns := by
  cases s with
  | create d p c => exact h.create d p c
  | call i call =>
    rw [Fleet.step]
    cases hdev : f.devices[i]? with
    | none => exact h
    | some dev =>
      by_cases hcall : call = .shutDown
      · rw [hcall]
        exact h.usedShut hdev _
      · exact h.used hdev (Uart.pinsKept_perform hcall)
  | endSession i =>
    rw [Fleet.step]
    cases hdev : f.devices[i]? with
    | none => exact h
    | some dev => exact h.usedShut hdev ()
  | drop i =>
    rw [Fleet.step]
    cases hdev : f.devices[i]? with
    | none => exact h
    | some dev => exact h.drop hdev
  | elsewhere g => exact ⟨h.claims, h.own⟩

/-! ## Whole runs -/

theorem owns_create (pinCount : Nat) (b : Bench σ) : Owns ⟨⟨PinRegistry.create pinCount, b⟩, []⟩ where
  claims := PinRegistry.claimsExactly_create pinCount
  own dev hmem := by cases hmem

theorem Owns.run (h : f.Owns) (steps : List (FleetStep σ)) : (f.run steps).Owns := by
  induction steps generalizing f with
  | nil => exact h
  | cons s steps ih => exact ih (h.step s)

theorem run_append (f : Fleet σ) (steps steps' : List (FleetStep σ)) :
    f.run (steps ++ steps') = (f.run steps).run steps' := List.foldl_append

theorem run_calls {i : Nat} {dev : Device σ} (hdev : f.devices[i]? = some dev)
    {calls : List Uart.Call} {replies : List Uart.Reply} {u : Uart} {w : World σ}
    (h : Uart.performAll dev.driver dev.platform calls dev.uart f.world = .ok (replies, u) w) :
    f.run (calls.map (.call i)) = ⟨w, f.devices.set i { dev with uart := u }⟩ := by
  induction calls generalizing f dev replies with
  | nil =>
    cases h
    obtain ⟨hlt, rfl⟩ := List.getElem?_eq_some_iff.mp hdev
    rw [List.map_nil, run, List.foldl_nil]
    show f = ⟨f.world, f.devices.set i f.devices[i]⟩
    rw [List.set_getElem_self]
  | cons call calls ih =>
    simp only [Uart.performAll, bind, EStateM.bind] at h
    cases hcall : dev.uart.perform dev.driver dev.platform call f.world with
    | error e w₁ =>
      rw [hcall] at h
      cases h
    | ok answer w₁ =>
      obtain ⟨reply, u₁⟩ := answer
      rw [hcall] at h
      simp only at h
      cases hrest : Uart.performAll dev.driver dev.platform calls u₁ w₁ with
      | error e w₂ =>
        rw [hrest] at h
        cases h
      | ok answer w₂ =>
        obtain ⟨replies', u₂⟩ := answer
        rw [hrest] at h
        cases h
        have hstep : f.step (.call i call) = ⟨w₁, f.devices.set i { dev with uart := u₁ }⟩ := by
          simp only [step, hdev, hcall]
          rfl
        have hlt := (List.getElem?_eq_some_iff.mp hdev).1
        have hnext : (f.step (.call i call)).devices[i]? = some { dev with uart := u₁ } := by
          rw [hstep]
          exact List.getElem?_set_self hlt
        have hworld : (f.step (.call i call)).world = w₁ := by rw [hstep]
        rw [List.map_cons, run, List.foldl_cons, ← run, ih hnext (by rw [hworld]; exact hrest), hstep,
          List.set_set]

/-- A device that has been shut down is shut down, leaves its session or is dropped without any effect
on the world around it. -/
theorem step_of_shut {i : Nat} {dev : Device σ} (hdev : f.devices[i]? = some dev)
    (hshut : dev.uart.isShut = true) :
    (f.step (.call i .shutDown)).world = f.world ∧ (f.step (.endSession i)).world = f.world ∧
      (f.step (.drop i)).world = f.world := by
  have hdone := Uart.shutDown_of_shut (d := dev.driver) (p := dev.platform) (w := f.world) hshut
  refine ⟨?_, ?_, ?_⟩
  · simp only [Fleet.step, hdev, Uart.perform, bind, EStateM.bind, hdone]
    rfl
  · simp only [Fleet.step, hdev, bind, EStateM.bind, hdone]
    rfl
  · simp only [Fleet.step, hdev, hdone]
    rfl

/-- After every run that begins without claims and devices, the claimed pins are those of the devices
that were made and not yet shut down. No two of these share a pin, the registry counts the pins of all
of them, and shutting down or dropping a device for a second time gives no pin back. -/
theorem run_owns_exclusively (pinCount : Nat) (b : Bench σ) (steps : List (FleetStep σ)) :
    let f := run ⟨⟨PinRegistry.create pinCount, b⟩, []⟩ steps
    (∀ pin, f.world.pins.isClaimed pin = true ↔ pin.number.toNat ∈ Pin.numbers f.held) ∧
      (Pin.numbers f.held).Nodup ∧
      f.world.pins.claimedCount = f.held.length ∧
      ∀ i dev, f.devices[i]? = some dev → dev.uart.isShut = true →
        (f.step (.call i .shutDown)).world = f.world ∧ (f.step (.endSession i)).world = f.world ∧
          (f.step (.drop i)).world = f.world := by
  intro f
  have howns : f.Owns := (owns_create pinCount b).run steps
  exact ⟨howns.claims.isClaimed_iff, howns.claims.nodup, howns.claims.claimedCount_eq,
    fun i dev hdev hshut => step_of_shut hdev hshut⟩

end Fleet
end SerialLine
