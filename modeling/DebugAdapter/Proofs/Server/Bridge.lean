import DebugAdapter.Proofs.Frontend.Padding
import DebugAdapter.Proofs.Session.Transition
import DebugAdapter.Proofs.Session.Course
import DebugAdapter.Proofs.Debuggee.Padding
import DebugAdapter.Scenario.Serving.Turn
import DebugAdapter.Server

namespace DebugAdapter

open Frontend Debuggee Effect

namespace Server

variable {s t : Server} {env : Environment} {input : Input} {unread chunk : Bytes}

theorem isServing_iff : s.isServing ↔ s.stage = .serving := by
  cases hs : s.stage <;> simp [isServing, hs]

theorem arrive_serving (hs : s.isServing) (chunk : Bytes) :
    s.arrive chunk =
      { s with decoder := s.decoder.feed chunk, space := s.space.fill chunk.length } := by
  simp [arrive, isServing_iff.mp hs]

/-- What looking for an input in the bytes that were read comes to. Where there is none, there is
room for more. -/
inductive Sought (s : Server) : Option (Input × Server) → Prop
  | nothing (d : Decoder) (space : ReadSpace) : s.decoder.next = .wait d →
      s.makeRoom = { s with decoder := d, space } → 0 < space.room → Sought s none
  | request (r : Request) (d : Decoder) : s.decoder.next = .item (.request r) d →
      Sought s (some (.request r, { s with decoder := d }))
  | malformed (body : String) (reason : Json.ReadError) (d : Decoder) :
      s.decoder.next = .item (.malformed body reason) d →
      Sought s (some (.malformed, { s with decoder := d }))
  | broken (e : FrameError) (d : Decoder) : s.decoder.next = .failed e d →
      Sought s (some (.broken, { s with decoder := d }))

/-- The cases of looking for an input, one for each thing that the decoder may come to. -/
theorem sought (hs : s.isServing) : Sought s s.nextInput? := by
  unfold nextInput?
  split
  · split <;> rename_i d hn
    · have hroom : s.makeRoom = { s with
          decoder := d, space := s.space.reserve d.buffer.length d.lacking } := by
        simp only [makeRoom, hn]
      refine .nothing d _ hn hroom ?_
      exact Nat.lt_of_lt_of_le (Decoder.lacking_pos hn) (s.space.le_room_reserve _ _)
    · exact .request _ _ hn
    · exact .malformed _ _ _ hn
    · exact .broken _ _ hn
  · rename_i hstage
    exact absurd (isServing_iff.mp hs) hstage

/-- A malformed request that is passed over leaves less to be decoded. -/
theorem malformed_work (hs : s.isServing) (hn : s.nextInput? = some (.malformed, t)) :
    t.decoder.work < s.decoder.work := by
  have h := sought hs
  rw [hn] at h
  cases h with
  | malformed _ _ d hi => exact Decoder.next_item_work hi

/-- Bytes that are read are nearer to being handled than those that are not. -/
theorem read_work (hs : s.isServing) (hn : s.nextInput? = none) (hu : ¬ unread.isEmpty) :
    2 * (unread.drop s.makeRoom.space.room).length +
        (s.makeRoom.arrive (unread.take s.makeRoom.space.room)).decoder.work <
      2 * unread.length + s.decoder.work := by
  have h := sought hs
  rw [hn] at h
  cases h with
  | nothing d space hw hroom hpos =>
    have hwork := Decoder.next_wait_work hw
    have hlength : 0 < unread.length := by
      cases unread with
      | nil => exact absurd rfl hu
      | cons => exact Nat.zero_lt_succ _
    rw [hroom, arrive_serving (s := { s with decoder := d, space }) hs]
    simp only [Decoder.work_feed, List.length_drop, List.length_take]
    omega

theorem handle_decoder (env : Environment) (s : Server) (input : Input) :
    (s.handle env input).1.decoder = s.decoder := by
  cases hs : s.stage <;> cases input with
  | report r => cases r <;> simp [handle, hs]
  | _ => simp [handle, shutDown, hs]

end Server

/-- `unread` was sent by the front end and not read, `reports` were made and not taken. `handled` is
what was handled while requests were served. -/
structure Bridge where
  server : Server
  supervisor : Supervisor
  unread : Bytes := []
  inputEnded : Bool := false
  reports : List Report := []
  handled : List Server.Input := []
  effects : List Effect := []

namespace Bridge

def start (config : Config) (roots : List String) : Bridge :=
  { server := { session := .start config roots }, supervisor := .start config.terminateGrace }

def handle (env : Environment) (b : Bridge) (input : Server.Input) : Bridge :=
  let (server, effects) := b.server.handle env input
  { b with
    server
    handled := if b.server.isServing then b.handled ++ [input] else b.handled
    effects := b.effects ++ effects }

def read (b : Bridge) : Bridge :=
  let server := b.server.makeRoom
  { b with
    server := server.arrive (b.unread.take server.space.room)
    unread := b.unread.drop server.space.room }

/-- Looks for the next input from the front end, and reads as long as there is none. Frames without
a request are passed over. -/
def fetch (env : Environment) (b : Bridge) : Option Server.Input × Bridge :=
  if _ : b.server.isServing then
    match _ : b.server.nextInput? with
    | some (.malformed, server) => fetch env ({ b with server }.handle env .malformed)
    | some (input, server) => (some input, { b with server })
    | none =>
      if _ : b.unread.isEmpty then
        let server := b.server.makeRoom
        (if b.inputEnded then some server.lastInput else none, { b with server })
      else fetch env b.read
  else (none, b)
termination_by 2 * b.unread.length + b.server.decoder.work
decreasing_by
  · have hwork := Server.malformed_work ‹_› ‹_›
    simp only [handle, Server.handle_decoder]
    omega
  · exact Server.read_work ‹_› ‹_› ‹_›

/-- Takes the next report that holds a record or the exit, and passes over the others. -/
def takeReport (env : Environment) : List Report → Bridge → Bridge
  | [], b => b
  | .malformed line reason :: reports, b =>
    takeReport env reports ({ b with reports }.handle env (.report (.malformed line reason)))
  | r :: reports, b => { b with reports }.handle env (.report r)

/-- What can happen: bytes of the front end come, or their end; the debuggee writes, and that is
read in some pieces; one of its streams ends; it is to be stopped; its supervisor is polled; a reader
that was asked to end comes to it; the session takes a request or a report; one of its timers fires;
its handshake goes on; a stack trace is answered; or the wait for the exit may be over. -/
inductive Move where
  | arrive (bytes : Bytes)
  | inputEnds
  | output (pieces : List Bytes)
  | outputEnds
  | errorsEnd
  | stop
  | poll (status : Option ExitInfo)
  | cancel
  | request
  | report
  | timer (key generation : Nat)
  | handshake
  | answer (index : Nat)
  | expire

def supervise (b : Bridge) (move : Supervisor.Move) : Bridge :=
  let (supervisor, reports) := b.supervisor.step move
  { b with supervisor, reports := b.reports ++ reports }

def turn (env : Environment) (b : Bridge) (move : Session.Move) : Bridge :=
  let (session, effects) := b.server.session.step env move
  { b with server := { b.server with session }, effects := b.effects ++ effects }

def step (env : Environment) (b : Bridge) : Move → Bridge
  | .arrive bytes => { b with unread := b.unread ++ bytes }
  | .inputEnds => { b with inputEnded := true }
  | .output pieces => pieces.foldl (fun b piece => b.supervise (.output piece)) b
  | .outputEnds => b.supervise .outputEnds
  | .errorsEnd => b.supervise .errorsEnd
  | .stop => b.supervise .stop
  | .poll status => b.supervise (.poll env.now status)
  | .cancel => b.supervise .cancel
  | .request =>
    match b.fetch env with
    | (some input, b) => b.handle env input
    | (none, b) => b
  | .report => b.takeReport env b.reports
  | .timer key generation => b.turn env (.timer key generation)
  | .handshake => b.turn env .handshake
  | .answer index => b.turn env (.answer index)
  | .expire => { b with server := b.server.expire env.now }

abbrev Course := List (Environment × Move)

def after (b : Bridge) (course : Course) : Bridge :=
  course.foldl (fun b (env, move) => b.step env move) b

theorem after_snoc (b : Bridge) (course : Course) (env : Environment) (move : Move) :
    b.after (course ++ [(env, move)]) = (b.after course).step env move := by
  simp [after]

section Turns

variable {b : Bridge} {s : Scenario.Serving}

/-- A malformed request changes nothing about the server. -/
theorem pass_server {env : Environment} {server : Server} (hs : server.isServing) :
    ({ b with server }.handle env .malformed).server = server := by
  simp [handle, Server.handle, Server.isServing_iff.mp hs]

theorem read_serving (hs : b.server.isServing) (hn : b.server.nextInput? = none) :
    b.read.server.isServing := by
  have h := Server.sought hs
  rw [hn] at h
  cases h with
  | nothing d space hw hroom =>
    rw [read, hroom, Server.arrive_serving (s := { b.server with decoder := d, space }) hs]
    exact hs

/-- A bridge holds of the front end's stream what a played server holds of it. -/
structure Mirrors (b : Bridge) (s : Scenario.Serving) : Prop where
  server : b.server = s.server
  unread : b.unread = s.incoming
  inputEnded : b.inputEnded = s.inputEnded

theorem Mirrors.pass (h : b.Mirrors s) (env : Environment) {server : Server}
    (hs : server.isServing) :
    ({ b with server }.handle env .malformed).Mirrors
      (s.perform (server.handle s.world.environment .malformed)) := by
  refine ⟨?_, h.unread, h.inputEnded⟩
  rw [pass_server hs]
  simp [Server.handle, Scenario.Serving.perform, Server.isServing_iff.mp hs]

theorem Mirrors.read (h : b.Mirrors s) :
    b.read.Mirrors { s with
      server := s.server.makeRoom.arrive (s.incoming.take s.server.makeRoom.space.room)
      incoming := s.incoming.drop s.server.makeRoom.space.room } := by
  refine ⟨?_, ?_, h.inputEnded⟩ <;> simp only [Bridge.read, h.server, h.unread]

/-- In its turn a session fetches the same, unless the turn is used up before. -/
theorem fetch_in_turn (env : Environment) (limit left : Nat) (h : b.Mirrors s)
    (hs : b.server.isServing)
    (hlimit : 2 * b.unread.length + b.server.decoder.work < limit) :
    let found := Scenario.Serving.fetch limit left s
    (found.1 = none ∧ found.2.1 = 0) ∨
      ((b.fetch env).1 = found.1 ∧ (b.fetch env).2.Mirrors found.2.2) := by
  fun_induction fetch env b generalizing limit left s with
  | case1 b hserving server hn ih =>
    obtain ⟨limit, rfl⟩ := Nat.exists_eq_add_one_of_ne_zero (Nat.ne_zero_of_lt hlimit)
    have hsought := Server.sought hserving
    have hn' : s.server.nextInput? = some (.malformed, server) := h.server ▸ hn
    rw [hn] at hsought
    cases hsought with
    | malformed body reason d hi =>
      have hserves : { b.server with decoder := d }.isServing := hserving
      have hwork := Decoder.next_item_work hi
      simp only [Scenario.Serving.fetch, hn']
      rw [pass_server hserves] at ih
      refine ih limit left (h.pass env hserves) hserves ?_
      simp only
      exact Nat.lt_of_lt_of_le (Nat.add_lt_add_left hwork _) (Nat.le_of_lt_succ hlimit)
  | case2 b hserving input server hne hn =>
    obtain ⟨limit, rfl⟩ := Nat.exists_eq_add_one_of_ne_zero (Nat.ne_zero_of_lt hlimit)
    have hn' : s.server.nextInput? = some (input, server) := h.server ▸ hn
    right
    simp only [Scenario.Serving.fetch, hn']
    exact ⟨trivial, rfl, h.unread, h.inputEnded⟩
  | case3 b hserving hn hu =>
    obtain ⟨limit, rfl⟩ := Nat.exists_eq_add_one_of_ne_zero (Nat.ne_zero_of_lt hlimit)
    have hn' : s.server.nextInput? = none := h.server ▸ hn
    have hempty : s.incoming.isEmpty := h.unread ▸ hu
    simp only [Scenario.Serving.fetch, hn']
    cases left with
    | zero => exact Or.inl ⟨rfl, rfl⟩
    | succ left =>
      right
      have hroom : b.server.makeRoom = s.server.makeRoom := congrArg Server.makeRoom h.server
      cases hi : s.inputEnded with
      | true =>
        simp only [hempty, if_true, h.inputEnded, hi]
        exact ⟨congrArg (some ·.lastInput) hroom, hroom, h.unread, rfl⟩
      | false =>
        simp only [hempty, if_true, h.inputEnded, hi]
        exact ⟨rfl, hroom, h.unread, rfl⟩
  | case4 b hserving hn hu ih =>
    obtain ⟨limit, rfl⟩ := Nat.exists_eq_add_one_of_ne_zero (Nat.ne_zero_of_lt hlimit)
    have hread := Server.read_work hserving hn hu
    have hn' : s.server.nextInput? = none := h.server ▸ hn
    have hempty : ¬ s.incoming.isEmpty := h.unread ▸ hu
    simp only [Scenario.Serving.fetch, hn']
    cases left with
    | zero => exact Or.inl ⟨rfl, rfl⟩
    | succ left =>
      simp only [hempty]
      refine ih limit left h.read (read_serving hserving hn) ?_
      exact Nat.lt_of_lt_of_le hread (Nat.le_of_lt_succ hlimit)
  | case5 b hserving => exact absurd hs hserving

end Turns

end Bridge
end DebugAdapter
