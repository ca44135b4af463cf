import Sponge.Socket.Loop

/-!
# From application to application

What holds in every run of two sockets over an internet. The log of the run is one
of the internet, in which the loops call their connections in time and lose no
byte of their applications (`run_internet`). So what an application is given is a
prefix of what the other one has sent, and all of it when it is told the end
(`given_prefix_taken`); while the streams are short, nothing can be out of reach
(`run_inReach`).
-/

namespace Sponge

open Lib

namespace FullStack

section
variable {cfgA cfgB : HostConfig} {routers : List Router} {s : FullStack}

theorem run_sound (h0 : mk? cfgA cfgB routers = some s) (ha : NoEcho cfgA.adapter cfgA.adapter)
    (hb : NoEcho cfgB.adapter cfgB.adapter) (hidle : ∀ r ∈ routers, r.Idle) (evs : List Event) :
    (run step s evs).Sound (fun x => (s.internet.system.endpoint x).conn.sender.isn) s.internet :=
  run_inv (sound_mk h0 ha hb hidle) (fun _ ev h => h.step ev) evs

end

/-- **The loops.** Every run of two sockets is a run of the internet in which no write comes after
the end of its stream. Each connection has been written all that was taken from its application,
and each application has been given all that was read from its connection. No loop has failed
because it would wait busily, or because the connection took less than it had room for. -/
theorem run_internet (cfgA cfgB : HostConfig) (routers : List Router) (s : FullStack)
    (evs : List Event) (h0 : mk? cfgA cfgB routers = some s)
    (ha : NoEcho cfgA.adapter cfgA.adapter) (hb : NoEcho cfgB.adapter cfgB.adapter)
    (hidle : ∀ r ∈ routers, r.Idle) :
    let t := run step s evs
    run Internet.step s.internet t.events = t.internet ∧
      Along Internet.step Internet.NoLateWrite s.internet t.events ∧
      (∀ x, (t.socket x).taken = (t.internet.host x).endpoint.wrote ∧
        (t.socket x).given = (t.internet.host x).endpoint.reads) ∧
      ∀ x fault, (t.socket x).phase = .ended (.error fault) →
        fault ≠ .acceptedLess ∧ fault ≠ .eventLoop EventLoop.busyWait := by
  have h := run_sound h0 ha hb hidle evs
  exact ⟨h.inv.ran.run, h.inv.ran.onTime, fun x => ⟨h.inv.taken x, h.inv.given x⟩, h.fault⟩

/-- **Delivery.** As long as nothing out of reach is delivered, what an application has been given
is a prefix of what the other one has sent; and when it has been told the end, without an error
and without an early FIN, it has been given all of it, and the other one has ended. -/
theorem given_prefix_taken (cfgA cfgB : HostConfig) (routers : List Router) (s : FullStack)
    (evs : List Event) (h0 : mk? cfgA cfgB routers = some s)
    (ha : NoEcho cfgA.adapter cfgA.adapter) (hb : NoEcho cfgB.adapter cfgB.adapter)
    (hidle : ∀ r ∈ routers, r.Idle)
    (hr : Along Internet.step Internet.InReach s.internet (run step s evs).events)
    (hs : ∀ x, ((run step s evs).socket x).taken.length < 2 ^ 63) (x : Side) :
    let t := run step s evs
    (t.socket x).given <+: (t.socket x.other).taken ∧
      ((t.socket x).inboundShutdown = true → (t.conn x).inboundStream.error = false →
        Along Internet.step (Internet.NoEarlyFin x) s.internet t.events →
        (t.socket x).given = (t.socket x.other).taken ∧
          (t.socket x.other).outboundShutdown = true) := by
  have h := (run_sound h0 ha hb hidle evs).inv
  have hshort : Short (run step s evs).internet.system := by
    have h1 := hs .a
    have h2 := hs .b
    rw [h.taken] at h1 h2
    exact ⟨h1, h2⟩
  simp only
  rw [h.given, h.taken, ← h.outbound]
  exact ⟨(List.prefix_append ..).trans (h.ran.received hr hshort x),
    fun hshut herr hfin => h.inbound x hshut herr ⟨hr, hshort, hfin⟩⟩

/-- **Reach.** While both applications have sent less than 2^31 bytes, no frame that a host has
read was out of reach, wherever it has been and however long. -/
theorem run_inReach (cfgA cfgB : HostConfig) (routers : List Router) (s : FullStack)
    (evs : List Event) (h0 : mk? cfgA cfgB routers = some s)
    (ha : NoEcho cfgA.adapter cfgA.adapter) (hb : NoEcho cfgB.adapter cfgB.adapter)
    (hidle : ∀ r ∈ routers, r.Idle)
    (hs : ∀ x, ((run step s evs).socket x).taken.length < 2 ^ 31) :
    Along Internet.step Internet.InReach s.internet (run step s evs).events := by
  have h := (run_sound h0 ha hb hidle evs).inv
  refine h.ran.near fun x => ?_
  have hx := hs x
  rw [h.taken] at hx
  rw [Internet.system_endpoint]
  omega

/-! ## A transfer -/

section
open EventLoop

/-- The adapter of `x` is readable, and has this frame. -/
def reads (x : Side) (frame : Nat) : Event :=
  .turn x { poll := .ready [{ pollIn := true }], frame := frame }

def flushes (x : Side) : Event :=
  .turn x { poll := .ready [{}, {}, {}, { pollOut := true }] }

/-- The client connects, sends two bytes and ends; the server is given both and the end. -/
def transferEvents : List Event :=
  [.listenAndAccept .b, .connect .a, flushes .a, .arrive 0 0 2, reads .a 3, .arrive 0 0 4,
   .route 0, reads .b 5, .arrive 0 1 6, reads .b 7, flushes .b, .arrive 0 1 8, .route 0,
   reads .a 9, .turn .a { poll := .timeout },
   .turn .a { poll := .ready [{}, { pollIn := true }, {}, { pollOut := true }],
              data := some [97, 98] },
   .turn .a { poll := .ready [{}, { pollIn := true }], data := some [] },
   -- the rule that reads from the application is gone
   .turn .a { poll := .ready [{}, {}, { pollOut := true }] },
   .arrive 0 0 10, .arrive 0 0 11, .arrive 0 0 12, .route 0, reads .b 13,
   .turn .b { poll := .timeout }, reads .b 14,
   .turn .b { poll := .ready [{ pollIn := true }, {}, { pollOut := true }], frame := 15,
              inbound := some 1 },
   .turn .b { poll := .ready [{}, {}, { pollOut := true }], inbound := some 1 }]

theorem internet_transfer : ∃ s, mk? clientHost serverHost [gateway] = some s ∧
    run Internet.step s.internet (run step s transferEvents).events =
      (run step s transferEvents).internet := by
  obtain ⟨s, h0⟩ : ∃ s, mk? clientHost serverHost [gateway] = some s := ⟨_, rfl⟩
  exact ⟨s, h0, (run_internet clientHost serverHost [gateway] s transferEvents h0 (by decide)
    (by decide) (by decide)).1⟩

theorem given_transfer : ∃ s, mk? clientHost serverHost [gateway] = some s ∧
    ((run step s transferEvents).socket .b).given = [97, 98] ∧
    ((run step s transferEvents).socket .b).given = ((run step s transferEvents).socket .a).taken ∧
    ((run step s transferEvents).socket .a).outboundShutdown = true := by
  obtain ⟨s, h0⟩ : ∃ s, mk? clientHost serverHost [gateway] = some s := ⟨_, rfl⟩
  have hevents : ∀ s ∈ mk? clientHost serverHost [gateway],
      Along Internet.step Internet.InReach s.internet (run step s transferEvents).events ∧
      Along Internet.step (Internet.NoEarlyFin .b) s.internet
        (run step s transferEvents).events := by decide +kernel
  have hends : ∀ s ∈ mk? clientHost serverHost [gateway],
      ((run step s transferEvents).socket .b).given = [97, 98] ∧
      ((run step s transferEvents).socket .b).inboundShutdown = true ∧
      ((run step s transferEvents).conn .b).inboundStream.error = false ∧
      ((run step s transferEvents).socket .a).taken.length < 2 ^ 63 ∧
      ((run step s transferEvents).socket .b).taken.length < 2 ^ 63 := by decide +kernel
  obtain ⟨hreach, hfin⟩ := hevents s h0
  obtain ⟨hgiven, hshut, herr, ha, hb⟩ := hends s h0
  exact ⟨s, h0, hgiven, (given_prefix_taken clientHost serverHost [gateway] s transferEvents h0
    (by decide) (by decide) (by decide) hreach (fun x => by cases x; exacts [ha, hb]) .b).2
    hshut herr hfin⟩

theorem inReach_transfer : ∃ s, mk? clientHost serverHost [gateway] = some s ∧
    Along Internet.step Internet.InReach s.internet (run step s transferEvents).events := by
  obtain ⟨s, h0⟩ : ∃ s, mk? clientHost serverHost [gateway] = some s := ⟨_, rfl⟩
  have hlength : ∀ s ∈ mk? clientHost serverHost [gateway],
      ((run step s transferEvents).socket .a).taken.length < 2 ^ 31 ∧
      ((run step s transferEvents).socket .b).taken.length < 2 ^ 31 := by decide +kernel
  obtain ⟨ha, hb⟩ := hlength s h0
  exact ⟨s, h0, run_inReach clientHost serverHost [gateway] s transferEvents h0 (by decide)
    (by decide) (by decide) fun x => by cases x; exacts [ha, hb]⟩

end

end FullStack

end Sponge
