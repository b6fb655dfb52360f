import ZeroCpu.Hardware.Buses

/-!
# The serial bus refines the direct bus

A serial bus over the mock transport and the mock bus, side by side through any sequence of accesses;
and what a failed handshake leaves behind.
-/

namespace ZeroCpu.Hardware

open Library HardwareProtocol

/-! ## One exchange -/

/-- A transport that no test hook has told to fail. -/
structure MockSerialTransport.Sound (transport : MockSerialTransport) : Prop where
  timeout_next : transport.timeout_next = false
  has_next_raw_response : transport.has_next_raw_response = false

/-- The transport with one more request on record. -/
def MockSerialTransport.record (transport : MockSerialTransport) (request : Str) :
    MockSerialTransport :=
  { transport with requests := transport.requests ++ [request] }

theorem MockSerialTransport.Sound.record {transport : MockSerialTransport} (h : transport.Sound)
    (request : Str) : (transport.record request).Sound := ⟨h.1, h.2⟩

/-- A connected transport answers what it can parse. -/
theorem MockSerialTransport.transact_of_sound {transport : MockSerialTransport} (h : transport.Sound)
    (hconnected : transport.connected = true) {timeoutMilliseconds : BitVec 32}
    (htimeout : timeoutMilliseconds ≠ 0) {request : Str} {parsed : HardwareProtocolRequest}
    (hparse : parseRequest request = .ok parsed) :
    transact request timeoutMilliseconds transport = answer parsed (transport.record request) := by
  have hne : (timeoutMilliseconds != 0) = true := bne_iff_ne.mpr htimeout
  obtain ⟨connected, timeout_next, has_next_raw_response, raw, registers, requests⟩ := transport
  obtain rfl : connected = true := hconnected
  obtain ⟨rfl, rfl⟩ : timeout_next = false ∧ has_next_raw_response = false := ⟨h.1, h.2⟩
  simp only [transact, hne, hparse]
  rfl

section

variable {timeout : BitVec 32} {htimeout : timeout ≠ 0} {t : MockSerialTransport}

/-- The bus over the mock transport. -/
def mockSerialBus (timeout : BitVec 32) (htimeout : timeout ≠ 0) :
    SerialHardwareBus MockSerialTransport :=
  ⟨MockSerialTransport.serialTransport, timeout, htimeout⟩

/-- A sound transport answers what the mock device answers. -/
theorem exchange_of_sound (h : t.Sound) (hconnected : t.connected = true) {request text : Str}
    {parsed : HardwareProtocolRequest} {response : HardwareProtocolResponse}
    {t' : MockSerialTransport} (hparse : parseRequest request = .ok parsed)
    (hanswer : MockSerialTransport.answer parsed (t.record request) = (.ok text, t'))
    (hresponse : parseResponse text = .ok response) :
    (mockSerialBus timeout htimeout).exchange request t = (.ok response, t') := by
  have htransact : (mockSerialBus timeout htimeout).transact request t = (.ok text, t') :=
    (MockSerialTransport.transact_of_sound h hconnected htimeout hparse).trans hanswer
  rw [SerialHardwareBus.exchange, Exec.bind_of_ok htransact, Exec.lift_apply, hresponse]

/-- A ping is answered. -/
theorem exchange_ping (h : t.Sound) (hconnected : t.connected = true) :
    (mockSerialBus timeout htimeout).exchange pingRequest t
      = (.ok { type := .Pong }, t.record pingRequest) :=
  exchange_of_sound h hconnected (parseRequest_ping .whole) rfl (parseResponse_pong .whole)

/-- A read is answered with the value of the register. -/
theorem exchange_read (h : t.Sound) (hconnected : t.connected = true) (offset : Word) :
    (mockSerialBus timeout htimeout).exchange (readRequest offset) t
      = (.ok { type := .Value, value := t.registers.value offset }, t.record (readRequest offset)) :=
  exchange_of_sound h hconnected (parseRequest_read .whole) rfl (parseResponse_value .whole)

/-- A write sets the register and is acknowledged. -/
theorem exchange_write (h : t.Sound) (hconnected : t.connected = true) (offset value : Word) :
    (mockSerialBus timeout htimeout).exchange (writeRequest offset value) t
      = (.ok { type := .Ok }, { t.record (writeRequest offset value) with
          registers := t.registers.set offset value }) :=
  exchange_of_sound h hconnected (parseRequest_write .whole) rfl (parseResponse_ok .whole)

/-! ## Two buses side by side -/

/-- A transport and a mock bus, both connected, with the same registers. -/
structure Agree (t : MockSerialTransport) (m : MockHardwareBus) : Prop where
  sound : t.Sound
  transport : t.connected = true
  bus : m.connected = true
  registers : t.registers = m.registers

variable {m : MockHardwareBus}

/-- The serial bus is connected. -/
theorem requireConnected_of_agree (h : Agree t m) :
    (mockSerialBus timeout htimeout).requireConnected t = (.ok (), t) := by
  show (Exec.require t.connected _ : Exec Str MockSerialTransport Unit) t = _
  rw [h.transport]
  rfl

/-- The mock bus is connected. -/
theorem mock_requireConnected_of_agree (h : Agree t m) :
    MockHardwareBus.requireConnected m = (.ok (), m) := by
  show (Exec.require m.connected _ : Exec Str MockHardwareBus Unit) m = _
  rw [h.bus]
  rfl

/-- One access has the same outcome on both buses, and they agree afterwards. -/
theorem access_agree (h : Agree t m) (access : Access) : ∃ result t' m',
    (mockSerialBus timeout htimeout).hardwareBus.access access t = (.ok result, t')
    ∧ MockHardwareBus.hardwareBus.access access m = (.ok result, m') ∧ Agree t' m' := by
  -- Each access is run on both sides and leaves them with the same registers.
  cases access with
  | read offset =>
    have hread : (mockSerialBus timeout htimeout).readRegister offset t
        = (.ok (t.registers.value offset), t.record (readRequest offset)) := by
      rw [SerialHardwareBus.readRegister, Exec.bind_of_ok (requireConnected_of_agree h),
        Exec.bind_of_ok (exchange_read h.sound h.transport offset)]
      rfl
    have hmock : MockHardwareBus.readRegister offset m = (.ok (t.registers.value offset),
        { m with transactions := m.transactions ++ [⟨.Read, offset, m.registers.value offset⟩] }) := by
      rw [MockHardwareBus.readRegister, Exec.bind_of_ok (mock_requireConnected_of_agree h), h.registers]
      rfl
    exact ⟨_, _, _, Exec.bind_of_ok hread, Exec.bind_of_ok hmock,
      ⟨h.sound.record _, h.transport, h.bus, h.registers⟩⟩
  | write offset value =>
    have hwrite : (mockSerialBus timeout htimeout).writeRegister offset value t
        = (.ok (), { t.record (writeRequest offset value) with
            registers := t.registers.set offset value }) := by
      rw [SerialHardwareBus.writeRegister, Exec.bind_of_ok (requireConnected_of_agree h),
        Exec.bind_of_ok (exchange_write h.sound h.transport offset value)]
      rfl
    have hmock : MockHardwareBus.writeRegister offset value m = (.ok (),
        { m with
          registers := m.registers.set offset value
          transactions := m.transactions ++ [⟨.Write, offset, value⟩] }) := by
      rw [MockHardwareBus.writeRegister, Exec.bind_of_ok (mock_requireConnected_of_agree h)]
      rfl
    exact ⟨_, _, _, Exec.bind_of_ok hwrite, Exec.bind_of_ok hmock,
      ⟨⟨h.sound.1, h.sound.2⟩, h.transport, h.bus, by rw [h.registers]⟩⟩

/-- So do any number of accesses. -/
theorem accesses_agree (h : Agree t m) (accesses : List Access) : ∃ outcomes t' m',
    (mockSerialBus timeout htimeout).hardwareBus.accesses accesses t = (.ok outcomes, t')
    ∧ MockHardwareBus.hardwareBus.accesses accesses m = (.ok outcomes, m') ∧ Agree t' m' := by
  induction accesses generalizing t m with
  | nil => exact ⟨[], t, m, rfl, rfl, h⟩
  | cons access rest ih =>
    obtain ⟨result, t', m', hserial, hmock, h'⟩ := @access_agree timeout htimeout t m h access
    obtain ⟨outcomes, t'', m'', hserials, hmocks, h''⟩ := ih h'
    have hattempt : Exec.attempt ((mockSerialBus timeout htimeout).hardwareBus.access access) t
        = ((.ok (.ok result) : Except Str _), t') := by rw [Exec.attempt, hserial]
    have hattempt' : Exec.attempt (MockHardwareBus.hardwareBus.access access) m
        = ((.ok (.ok result) : Except Str _), m') := by rw [Exec.attempt, hmock]
    refine ⟨.ok result :: outcomes, t'', m'', ?_, ?_, h''⟩
    · rw [HardwareBus.accesses, Exec.bind_of_ok hattempt, Exec.bind_of_ok hserials]
      rfl
    · rw [HardwareBus.accesses, Exec.bind_of_ok hattempt', Exec.bind_of_ok hmocks]
      rfl

/-! ## Connecting -/

/-- Connecting a sound transport succeeds and changes no register. -/
theorem connect_of_sound (h : t.Sound) : ∃ t',
    (mockSerialBus timeout htimeout).connect t = (.ok (), t') ∧ t'.Sound ∧ t'.connected = true
      ∧ t'.registers = t.registers := by
  cases hconnected : t.connected with
  | true =>
    refine ⟨t, ?_, h, hconnected, rfl⟩
    show (if t.connected = true then _ else _ : Exec Str MockSerialTransport Unit) t = _
    rw [if_pos hconnected]
    rfl
  | false =>
    let opened : MockSerialTransport := { t with connected := true }
    have hopened : opened.Sound := ⟨h.1, h.2⟩
    have hshake : (mockSerialBus timeout htimeout).handshake opened
        = (.ok (), opened.record pingRequest) := by
      rw [SerialHardwareBus.handshake, Exec.bind_of_ok (exchange_ping hopened rfl)]
      rfl
    refine ⟨opened.record pingRequest, ?_, hopened.record _, rfl, rfl⟩
    show (if t.connected = true then _ else _ : Exec Str MockSerialTransport Unit) t = _
    rw [if_neg (by simp [hconnected])]
    show Exec.onError (mockSerialBus timeout htimeout).handshake _ opened = _
    rw [Exec.onError, hshake]

/-- A handshake that throws leaves a transport disconnected, if disconnecting does. -/
theorem connect_error {W : Type} {bus : SerialHardwareBus W}
    (hdisconnect : ∀ s, bus.transport.connected (bus.transport.disconnect s).2 = false) {s s₁ s' : W}
    {e : Str} (hopen : bus.transport.connect s = (.ok (), s₁)) (h : bus.connect s = (.error e, s')) :
    bus.connected s' = false := by
  have hconnect : bus.connect s = (if bus.connected s = true then pure () else do
      bus.transport.connect
      Exec.onError bus.handshake bus.transport.disconnect : Exec Str W Unit) s := rfl
  rw [hconnect] at h
  by_cases hconnected : bus.connected s = true
  · rw [if_pos hconnected] at h
    cases (Prod.ext_iff.mp h).1
  · rw [if_neg hconnected, Exec.bind_of_ok hopen, Exec.onError] at h
    rcases hshake : bus.handshake s₁ with ⟨e' | ⟨⟩, s₂⟩
    · rw [hshake] at h
      have hstate : s' = (bus.transport.disconnect s₂).2 := by
        rcases hclose : bus.transport.disconnect s₂ with ⟨e'' | ⟨⟩, s₃⟩ <;> simp only [hclose] at h <;>
          exact (Prod.ext_iff.mp h).2.symm
      exact hstate ▸ hdisconnect s₂
    · rw [hshake] at h
      cases (Prod.ext_iff.mp h).1

end

/-- The serial bus refines the mock bus, and a failed handshake disconnects the transport. -/
theorem serial_refines_mock (timeout : BitVec 32) (htimeout : timeout ≠ 0) :
    (∀ (t : MockSerialTransport) (m : MockHardwareBus) (accesses : List Access),
      t.Sound → t.registers = m.registers →
      ∃ t₁ m₁, (mockSerialBus timeout htimeout).connect t = (.ok (), t₁)
        ∧ MockHardwareBus.hardwareBus.connect m = (.ok (), m₁)
        ∧ ∃ outcomes t₂ m₂,
          (mockSerialBus timeout htimeout).hardwareBus.accesses accesses t₁ = (.ok outcomes, t₂)
          ∧ MockHardwareBus.hardwareBus.accesses accesses m₁ = (.ok outcomes, m₂)
          ∧ t₂.registers = m₂.registers)
    ∧ (∀ (t t' : MockSerialTransport) (e : Str),
        (mockSerialBus timeout htimeout).connect t = (.error e, t') → t'.connected = false)
    ∧ ∀ (W : Type) (bus : SerialHardwareBus W) (s s₁ s' : W) (e : Str),
        (∀ s, bus.transport.connected (bus.transport.disconnect s).2 = false) →
        bus.transport.connect s = (.ok (), s₁) → bus.connect s = (.error e, s') →
        bus.connected s' = false := by
  refine ⟨fun t m accesses hsound hregisters => ?_, fun t t' e h => ?_,
    fun W bus s s₁ s' e hdisconnect hopen h => connect_error hdisconnect hopen h⟩
  · obtain ⟨t₁, hconnect, hsound₁, hconnected, hsame⟩ := @connect_of_sound timeout htimeout t hsound
    have hagree : Agree t₁ { m with connected := true } :=
      ⟨hsound₁, hconnected, rfl, hsame.trans hregisters⟩
    obtain ⟨outcomes, t₂, m₂, hserial, hmock, hagree₂⟩ :=
      @accesses_agree timeout htimeout t₁ _ hagree accesses
    exact ⟨t₁, _, hconnect, rfl, outcomes, t₂, m₂, hserial, hmock, hagree₂.registers⟩
  · exact @connect_error _ (mockSerialBus timeout htimeout) (fun _ => rfl) _ _ _ _ rfl h

/-- Both buses, freshly connected. -/
theorem serial_refines_mock_started :
    (∃ t₁ m₁, (mockSerialBus 500 (by decide)).connect {} = (.ok (), t₁)
      ∧ MockHardwareBus.hardwareBus.connect { name := "mock" } = (.ok (), m₁)
      ∧ ∃ outcomes t₂ m₂,
        (mockSerialBus 500 (by decide)).hardwareBus.accesses [.write 8 (-1), .read 8] t₁
          = (.ok outcomes, t₂)
        ∧ MockHardwareBus.hardwareBus.accesses [.write 8 (-1), .read 8] m₁ = (.ok outcomes, m₂)
        ∧ t₂.registers = m₂.registers)
    ∧ (∃ t', (mockSerialBus 500 (by decide)).connect
        { has_next_raw_response := true, next_raw_response := "ZEROCPU/1 OK" }
        = (.error "Hardware handshake expected PONG", t') ∧ t'.connected = false) := by
  have hne : (500 : BitVec 32) ≠ 0 := by decide
  refine ⟨(serial_refines_mock 500 hne).1 {} { name := "mock" } _ ⟨rfl, rfl⟩ rfl, _, rfl, ?_⟩
  exact (serial_refines_mock 500 hne).2.2 _ (mockSerialBus 500 hne)
    { has_next_raw_response := true, next_raw_response := "ZEROCPU/1 OK" } _ _ _ (fun _ => rfl) rfl rfl

end ZeroCpu.Hardware
