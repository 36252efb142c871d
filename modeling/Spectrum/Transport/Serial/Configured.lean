import Spectrum.Transport.Serial.Leak

/-! What stands behind the status `Connected` of a serial transport, and where its bytes go. -/
namespace Spectrum.Transport.Serial
open Foundation Utils

/-- 8N1 at the baud rate given. -/
structure Termios.Configured (tty : Termios) (baudRate : BaudRate) : Prop where
  ospeed : tty.ospeed = toSpeedT baudRate
  ispeed : tty.ispeed = toSpeedT baudRate
  clocal : tty.clocal = true
  cread : tty.cread = true
  parenb : tty.parenb = false
  cstopb : tty.cstopb = false
  csize : tty.csize = .cs8

namespace Impl

theorem connect_connected {codes : Codes} {s : Impl} {env : PortEnv}
    (h : (s.connect codes env).2.status = .connected) :
    (s.status = .connected ∧ (s.connect codes env).2 = s) ∨
      (s.status ≠ .connected ∧ env.succeeds = true ∧
        (s.connect codes env).2.slot = s.slot.acquire ∧
        ∃ tty, (s.connect codes env).2.attributes = s.attributes ++ [(s.fds.opened, tty)] ∧
          tty.Configured s.baudRate) := by
  by_cases hs : s.status = .connected
  · exact .inl ⟨hs, by simp [connect, hs]⟩
  · right
    unfold connect at h ⊢
    rw [if_neg hs] at h ⊢
    obtain ⟨openPort, tcgetattr, tcsetattr⟩ := env
    cases openPort with
    | false => cases h
    | true =>
      cases tcgetattr with
      | none => cases h
      | some tty =>
        cases tcsetattr with
        | false => cases h
        | true =>
          exact ⟨hs, rfl, rfl, _, rfl, rfl, rfl, rfl, rfl, rfl, rfl, rfl⟩

theorem connect_kept (codes : Codes) (s : Impl) (env : PortEnv) :
    (s.connect codes env).2.baudRate = s.baudRate ∧
      (s.connect codes env).2.written = s.written := by
  unfold connect
  split
  · exact ⟨rfl, rfl⟩
  · split
    · exact ⟨rfl, rfl⟩
    · split
      · exact ⟨rfl, rfl⟩
      · dsimp only
        split <;> exact ⟨rfl, rfl⟩

theorem disconnect_kept (s : Impl) : s.disconnect.2.baudRate = s.baudRate ∧
    s.disconnect.2.written = s.written := by
  unfold disconnect
  split <;> exact ⟨rfl, rfl⟩

theorem disconnect_status (s : Impl) : s.disconnect.2.status = .disconnected := by
  unfold disconnect
  split <;> rfl

/-- `send` calls `::write` once, on the descriptor held, or not at all. -/
theorem send_cases (codes : Codes) (s : Impl) (data : List UInt8) (bytesWritten : ℤ) :
    ((s.send codes data bytesWritten).1 = false ∧
      (s.send codes data bytesWritten).2.written = s.written) ∨
    ∃ fd, s.status = .connected ∧ s.fd = some fd ∧
      (s.send codes data bytesWritten).2.written =
        s.written ++ [(fd, data.take bytesWritten.toNat)] ∧
      ((s.send codes data bytesWritten).1 = true → bytesWritten = data.length) := by
  unfold send
  split
  · next fd hstatus hfd =>
    refine .inr ⟨fd, hstatus, hfd, ?_⟩
    dsimp only
    split
    · exact ⟨rfl, fun h => by cases h⟩
    · next hall => exact ⟨rfl, fun _ => by omega⟩
  · exact .inl ⟨rfl, rfl⟩

theorem send_kept (codes : Codes) (s : Impl) (data : List UInt8) (bytesWritten : ℤ) :
    (s.send codes data bytesWritten).2.status = s.status ∧
      (s.send codes data bytesWritten).2.attributes = s.attributes ∧
      (s.send codes data bytesWritten).2.baudRate = s.baudRate := by
  unfold send
  split
  · dsimp only
    split <;> exact ⟨rfl, rfl, rfl⟩
  · exact ⟨rfl, rfl, rfl⟩

/-- A `connect` that goes on to `::open`, with success all the way. -/
def Attempt (s : Impl) (e : Event) : Prop :=
  s.status ≠ .connected ∧ ∃ env, e = .connect env ∧ env.succeeds = true

/-- No attempt to connect is made, and no disconnection. -/
def Quiet (s : Impl) : Event → Prop
  | .connect _ => s.status = .connected
  | .disconnect => False
  | .send _ _ => True

theorem step_connected {k : Kind} {s t : Impl} {e : Event} (h : step k s e = some t)
    (ht : t.status = .connected) : s.Attempt e ∨ (s.status = .connected ∧ s.Quiet e) := by
  rcases step_cases h with ⟨env, rfl, rfl⟩ | ⟨rfl, rfl⟩ | ⟨data, bytesWritten, rfl, rfl⟩
  · rcases connect_connected ht with ⟨hs, -⟩ | ⟨hs, henv, -⟩
    · exact .inr ⟨hs, hs⟩
    · exact .inl ⟨hs, env, rfl, henv⟩
  · rw [s.disconnect_status] at ht
    cases ht
  · rw [(send_kept _ _ _ _).1] at ht
    exact .inr ⟨ht, trivial⟩

theorem step_quiet {k : Kind} {s t : Impl} {e : Event} (hs : s.status = .connected)
    (he : s.Quiet e) (h : step k s e = some t) :
    t.status = .connected ∧ t.slot = s.slot ∧ t.attributes = s.attributes := by
  rcases step_cases h with ⟨env, rfl, rfl⟩ | ⟨rfl, rfl⟩ | ⟨data, bytesWritten, rfl, rfl⟩
  · have heq : (s.connect k.codes env).2 = s := by simp [connect, hs]
    rw [heq]
    exact ⟨hs, rfl, rfl⟩
  · exact he.elim
  · obtain ⟨hstatus, hattributes, -⟩ := send_kept k.codes s data bytesWritten
    exact ⟨hstatus.trans hs, send_slot _ _ _ _, hattributes⟩

/-- The ledger stays sound, leaks or not. -/
theorem step_sound {k : Kind} {s t : Impl} {e : Event} (hs : s.slot.Sound)
    (h : step k s e = some t) : t.slot.Sound := by
  rcases step_slot h with hslot | hslot | ⟨-, -, -, hslot | hslot⟩ <;> rw [hslot]
  · exact hs
  · exact hs.release
  · exact hs.forget
  · exact hs.acquire

theorem step_baudRate {k : Kind} {s t : Impl} {e : Event} (h : step k s e = some t) :
    t.baudRate = s.baudRate := by
  rcases step_cases h with ⟨env, rfl, rfl⟩ | ⟨rfl, rfl⟩ | ⟨data, bytesWritten, rfl, rfl⟩
  · exact (connect_kept _ _ _).1
  · exact s.disconnect_kept.1
  · exact (send_kept _ _ _ _).2.2

theorem step_written {k : Kind} {s t : Impl} {e : Event} (h : step k s e = some t) :
    t.written = s.written ∨ ∃ data bytesWritten fd, e = .send data bytesWritten ∧
      s.status = .connected ∧ s.fd = some fd ∧
      t.written = s.written ++ [(fd, data.take bytesWritten.toNat)] := by
  rcases step_cases h with ⟨env, rfl, rfl⟩ | ⟨rfl, rfl⟩ | ⟨data, bytesWritten, rfl, rfl⟩
  · exact .inl (connect_kept _ _ _).2
  · exact .inl s.disconnect_kept.2
  · rcases s.send_cases k.codes data bytesWritten with ⟨-, hwritten⟩ | ⟨fd, hs, hfd, hwritten, -⟩
    · exact .inl hwritten
    · exact .inr ⟨data, bytesWritten, fd, rfl, hs, hfd, hwritten⟩

theorem step_attempt {k : Kind} {s t : Impl} {env : PortEnv} (hs : s.status ≠ .connected)
    (h : step k s (.connect env) = some t) (ht : t.status = .connected) :
    t.slot = s.slot.acquire ∧ ∃ tty, t.attributes = s.attributes ++ [(s.fds.opened, tty)] ∧
      tty.Configured s.baudRate := by
  have hsame := Option.some.inj h
  rw [k.connect_eq] at hsame
  subst hsame
  rcases connect_connected ht with ⟨hconn, -⟩ | ⟨-, -, hopened⟩
  · exact absurd hconn hs
  · exact hopened

theorem run_sound {k : Kind} {device : String} {baudRate : BaudRate} {es : List Event} {t : Impl}
    (hrun : (serial k).run (new device baudRate) es = some t) :
    t.slot.Sound ∧ t.baudRate = baudRate := by
  have hstart : (new device baudRate).slot.Sound ∧ (new device baudRate).baudRate = baudRate :=
    ⟨Slot.Sound.empty, rfl⟩
  refine System.run_invariant (serial k) (I := fun s => s.slot.Sound ∧ s.baudRate = baudRate)
    ?_ hstart hrun
  intro s e u hs hsu
  exact ⟨step_sound hs.1 hsu, (step_baudRate hsu).trans hs.2⟩

theorem run_quiet {k : Kind} {s t : Impl} {es : List Event} (hs : s.status = .connected)
    (hquiet : (serial k).Along Quiet s es) (hrun : (serial k).run s es = some t) :
    t.status = .connected ∧ t.slot = s.slot ∧ t.attributes = s.attributes := by
  refine hquiet.invariant
    (I := fun u => u.status = .connected ∧ u.slot = s.slot ∧ u.attributes = s.attributes)
    ?_ ⟨hs, rfl, rfl⟩ hrun
  intro u e v hu he huv
  obtain ⟨hv, hslot, hattributes⟩ := step_quiet hu.1 he huv
  exact ⟨hv, hslot.trans hu.2.1, hattributes.trans hu.2.2⟩

end Impl

/-- In the run over `es`, the last attempt to connect obtained `fd` from `::open` and configured
it, and it is still open, with no other attempt and no disconnection since. -/
def FromLastAttempt (k : Kind) (start : Impl) (es : List Event) (t : Impl) (fd : ℕ) : Prop :=
  ∃ before env after m n tty, es = before ++ .connect env :: after ∧
    (serial k).run start before = some m ∧ m.status ≠ .connected ∧ env.succeeds = true ∧
    step k m (.connect env) = some n ∧ (serial k).Along Impl.Quiet n after ∧
    fd = m.fds.opened ∧ t.fds.IsOpen fd ∧ t.attributes.getLast? = some (fd, tty) ∧
    tty.Configured start.baudRate

theorem fromLastAttempt_of_connected {k : Kind} {device : String} {baudRate : BaudRate}
    {es : List Event} {t : Impl} (hrun : (serial k).run (.new device baudRate) es = some t)
    (ht : t.status = .connected) :
    ∃ fd, t.fd = some fd ∧ FromLastAttempt k (.new device baudRate) es t fd := by
  rcases System.run_origin (Q := fun s : Impl => s.status = .connected)
      (fun s e u hstep hu => Impl.step_connected hstep hu) hrun ht with
    ⟨hstart, -⟩ | ⟨before, e, after, m, n, rfl, hbefore, hattempt, hstep, hn, hquiet, hafter⟩
  · cases hstart
  · obtain ⟨hm, env, rfl, henv⟩ := hattempt
    obtain ⟨hsound, hbaud⟩ := Impl.run_sound hbefore
    obtain ⟨hslot, tty, hattributes, htty⟩ := Impl.step_attempt hm hstep hn
    obtain ⟨-, hkept, hattributes'⟩ := Impl.run_quiet hn hquiet hafter
    have htslot : t.slot = m.slot.acquire := hkept.trans hslot
    have hheld : t.fd = some m.fds.opened := congrArg Slot.held htslot
    have hopen : t.fds.IsOpen m.fds.opened := by
      have hled : t.fds = m.slot.acquire.ledger := congrArg Slot.ledger htslot
      rw [hled]
      exact hsound.acquire.held_open _ rfl
    have hlast : t.attributes.getLast? = some (m.fds.opened, tty) := by
      rw [hattributes', hattributes, List.getLast?_concat]
    rw [hbaud] at htty
    exact ⟨m.fds.opened, hheld, before, env, after, m, n, tty, rfl, hbefore, hm, henv, hstep,
      hquiet, rfl, hopen, hlast, htty⟩

/-- In every state that a serial transport reaches: when it is connected, its descriptor is the one
that its last attempt to connect opened and configured; nothing but a `send` writes, once, and to
that descriptor; and `send` returns true only after a `::write` of all bytes. -/
theorem serial_configured (k : Kind) (device : String) (baudRate : BaudRate) (es : List Event)
    (t : Impl) (hrun : (serial k).run (.new device baudRate) es = some t) :
    (t.status = .connected →
      ∃ fd, t.fd = some fd ∧ FromLastAttempt k (.new device baudRate) es t fd) ∧
    (∀ e u, step k t e = some u → u.written = t.written ∨
      ∃ data bytesWritten fd, e = .send data bytesWritten ∧ t.status = .connected ∧
        t.fd = some fd ∧ FromLastAttempt k (.new device baudRate) es t fd ∧
        u.written = t.written ++ [(fd, data.take bytesWritten.toNat)]) ∧
    ∀ data bytesWritten, (k.send t data bytesWritten).1 = true →
      bytesWritten = data.length ∧ ∃ fd, t.fd = some fd ∧
        (k.send t data bytesWritten).2.written = t.written ++ [(fd, data)] := by
  refine ⟨fun ht => fromLastAttempt_of_connected hrun ht, ?_, ?_⟩
  · intro e u hstep
    rcases Impl.step_written hstep with hsame | ⟨data, bytesWritten, fd, rfl, ht, hfd, hwritten⟩
    · exact .inl hsame
    · obtain ⟨fd', hfd', hlast⟩ := fromLastAttempt_of_connected hrun ht
      have hsame : fd' = fd := Option.some.inj (hfd'.symm.trans hfd)
      rw [hsame] at hlast
      exact .inr ⟨data, bytesWritten, fd, rfl, ht, hfd, hlast, hwritten⟩
  · intro data bytesWritten hsent
    rw [k.send_eq] at hsent ⊢
    rcases t.send_cases k.codes data bytesWritten with ⟨hfalse, -⟩ | ⟨fd, -, hfd, hwritten, hall⟩
    · rw [hfalse] at hsent
      cases hsent
    · have hlength := hall hsent
      refine ⟨hlength, fd, hfd, ?_⟩
      rw [hwritten, hlength, Int.toNat_natCast, List.take_length]

theorem serial_configured_retry :
    let tty : Termios := ⟨.b9600, .b9600, false, false, false, false, .cs7⟩
    ∃ t, (serial .rs485Transport).run (.new "/dev/ttyS0" .br115200)
        [.connect ⟨true, some tty, false⟩, .connect ⟨true, some tty, true⟩, .send [0x02] 1] =
          some t ∧
      ∃ fd, t.fd = some fd ∧ FromLastAttempt .rs485Transport (.new "/dev/ttyS0" .br115200)
        [.connect ⟨true, some tty, false⟩, .connect ⟨true, some tty, true⟩, .send [0x02] 1] t fd :=
  ⟨_, rfl, (serial_configured .rs485Transport "/dev/ttyS0" .br115200
    [.connect ⟨true, some ⟨.b9600, .b9600, false, false, false, false, .cs7⟩, false⟩,
      .connect ⟨true, some ⟨.b9600, .b9600, false, false, false, false, .cs7⟩, true⟩,
      .send [0x02] 1] _ rfl).1 rfl⟩

end Spectrum.Transport.Serial
