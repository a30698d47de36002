import DebugAdapter.Proofs.Server.Shown
import DebugAdapter.Proofs.Session.HandshakeOrder

namespace DebugAdapter

open Frontend Debuggee Effect

/-- The session of a server makes one of its own moves, or none. -/
theorem Server.handle_session (env : Environment) (s : Server) (input : Input) :
    (s.handle env input).1.session = s.session ∨
      ∃ move, (s.handle env input).1.session = (s.session.step env move).1 ∧
        ∀ r, move = .report r → s.isServing ∧ input = .report r := by
  obtain ⟨session, decoder, space, outbox, stage⟩ := s
  cases stage with
  | serving =>
    cases input with
    | request r => exact Or.inr ⟨.request r, rfl, nofun⟩
    | malformed => exact Or.inl rfl
    | broken | ended => exact Or.inr ⟨.shutDown, rfl, nofun⟩
    | report r =>
      refine Or.inr ⟨.report r, rfl, fun r' hr => ?_⟩
      cases hr
      exact ⟨rfl, rfl⟩
  | closing deadline =>
    left
    cases input with
    | report r => cases r <;> rfl
    | _ => rfl
  | closed =>
    left
    cases input <;> rfl

namespace Shown

variable {v : Shown} {env : Environment}

/-- If the debuggee was heard, it was by a record. -/
def Told (v : Shown) : Prop :=
  v.session.heard = true → ∃ record, Server.Input.report (.record record) ∈ v.handled

theorem Told.turn (ht : v.Told) {move : Session.Move} (hm : ∀ r, move ≠ .report r) :
    (v.turn env move).Told := by
  intro hheard
  rcases (v.session.step_transition env move).heard hheard with hold | ⟨record, rfl⟩
  · exact ht hold
  · exact absurd rfl (hm _)

theorem Told.handle (ht : v.Told) (env : Environment) (input : Server.Input) :
    (v.handle env input).Told := by
  have hold (hheard : v.session.heard = true) :
      ∃ record, Server.Input.report (.record record) ∈ (v.handle env input).handled := by
    obtain ⟨record, hmem⟩ := ht hheard
    refine ⟨record, ?_⟩
    simp only [Shown.handle]
    split
    · exact List.mem_append_left _ hmem
    · exact hmem
  intro hheard
  rcases v.server.handle_session env input with hsame | ⟨move, hmove, hreport⟩
  · exact hold ((congrArg Session.heard hsame).symm.trans hheard)
  · have hheard' : (v.session.step env move).1.heard = true := hmove ▸ hheard
    rcases (v.session.step_transition env move).heard hheard' with hbefore | ⟨record, rfl⟩
    · exact hold hbefore
    · obtain ⟨hserving, rfl⟩ := hreport _ rfl
      refine ⟨record, ?_⟩
      simp [Shown.handle, hserving, Server.Input.carries, Report.carries]

/-- No move but a record has the debuggee heard. -/
theorem Told.step (ht : v.Told) (env : Environment) (move : Bridge.Move) :
    (v.step env move).Told := by
  cases move with
  | report =>
    simp only [Shown.step, takeReport]
    split
    · exact ht
    · exact Told.handle (v := { v with reports := _ }) ht env _
  | timer | handshake | answer => exact ht.turn (by rintro _ ⟨⟩)
  | _ => exact ht

end Shown

namespace Bridge

def Move.arriving : Move → Bytes
  | .arrive bytes => bytes
  | _ => []

def Move.writing : Move → Bytes
  | .output pieces => pieces.flatten
  | _ => []

def Move.isApart : Move → Bool
  | .arrive _ | .output _ | .outputEnds => false
  | _ => true

def arrived (course : Course) : Bytes :=
  course.flatMap fun (_, move) => move.arriving

def written (course : Course) : Bytes :=
  course.flatMap fun (_, move) => move.writing

/-- The same happens in two courses at the same times, but that in the second one frames without a
request come between those of the front end's stream, and lines without a record between those of
the debuggee's output. Such frames and lines may come at any time, and in any pieces. Where the
output ends they are complete. -/
inductive Padding : Course → Course → Prop
  | nil : Padding [] []
  | same {plain padded : Course} (env : Environment) (move : Move) : move.isApart →
      Padding plain padded → Padding (plain ++ [(env, move)]) (padded ++ [(env, move)])
  | arrive {plain padded : Course} (env : Environment) (own all : Bytes) :
      Padding plain padded →
      Bytes.Padded True Framed Spoiled (arrived plain ++ own) (arrived padded ++ all) →
      Padding (plain ++ [(env, .arrive own)]) (padded ++ [(env, .arrive all)])
  | frames {plain padded : Course} (env : Environment) (added : Bytes) :
      Padding plain padded →
      Bytes.Padded True Framed Spoiled (arrived plain) (arrived padded ++ added) →
      Padding plain (padded ++ [(env, .arrive added)])
  | output {plain padded : Course} (env : Environment) (own all : List Bytes) :
      Padding plain padded →
      Bytes.Padded True Ended Noise (written plain ++ own.flatten)
        (written padded ++ all.flatten) →
      Padding (plain ++ [(env, .output own)]) (padded ++ [(env, .output all)])
  | lines {plain padded : Course} (env : Environment) (added : List Bytes) :
      Padding plain padded →
      Bytes.Padded True Ended Noise (written plain) (written padded ++ added.flatten) →
      Padding plain (padded ++ [(env, .output added)])
  | outputEnds {plain padded : Course} (env : Environment) : Padding plain padded →
      Bytes.Padded False Ended Noise (written plain) (written padded) →
      Padding (plain ++ [(env, .outputEnds)]) (padded ++ [(env, .outputEnds)])

section Streams

variable {env : Environment} {move : Move} {plain padded : Course}

theorem arrived_snoc (course : Course) (env : Environment) (move : Move) :
    arrived (course ++ [(env, move)]) = arrived course ++ move.arriving := by
  simp [arrived]

theorem written_snoc (course : Course) (env : Environment) (move : Move) :
    written (course ++ [(env, move)]) = written course ++ move.writing := by
  simp [written]

theorem apart_brings (ha : move.isApart) : move.arriving = [] ∧ move.writing = [] := by
  cases move with
  | arrive | output | outputEnds => cases ha
  | _ => exact ⟨rfl, rfl⟩

/-- At any time the streams of the second course are those of the first with more put in. -/
theorem Padding.streams (h : Padding plain padded) :
    Bytes.Padded True Framed Spoiled (arrived plain) (arrived padded) ∧
      Bytes.Padded True Ended Noise (written plain) (written padded) := by
  induction h with
  | nil => exact ⟨.rest _, .rest _⟩
  | same env move ha _ ih =>
    obtain ⟨harriving, hwriting⟩ := apart_brings ha
    simpa [arrived_snoc, written_snoc, harriving, hwriting] using ih
  | arrive env own all _ hp ih | frames env _ _ hp ih =>
    simpa [arrived_snoc, written_snoc, Move.arriving, Move.writing, hp] using ih.2
  | output env own all _ hp ih | lines env _ _ hp ih =>
    simpa [arrived_snoc, written_snoc, Move.arriving, Move.writing, hp] using ih.1
  | outputEnds env _ _ ih =>
    simpa [arrived_snoc, written_snoc, Move.arriving, Move.writing] using ih

end Streams

/-- What two bridges have in common of which the second has got more of the front end's stream and
of the debuggee's output. As long as requests are served, the same were taken off both streams. -/
structure Alike (sent sent' wrote wrote' : Bytes) (b c : Bridge) : Prop where
  shown : c.shown = b.shown
  told : b.shown.Told
  reading : b.server.isServing → ∃ taken,
    Decoder.Yields taken (.feed {} sent) b.held ∧ Decoder.Yields taken (.feed {} sent') c.held
  hears : b.supervisor.Hears wrote
  hears' : c.supervisor.Hears wrote'

section Steps

variable {move : Move} {sent sent' wrote wrote' : Bytes} {b c b' c' : Bridge}

theorem start_alike (config : Config) (roots : List String) :
    Alike [] [] [] [] (start config roots) (start config roots) := by
  refine ⟨rfl, nofun, fun _ => ⟨[], .refl _, .refl _⟩, ?_, ?_⟩ <;>
    exact ⟨rfl, fun _ => rfl⟩

theorem Alike.serving (h : Alike sent sent' wrote wrote' b c) :
    c.server.isServing = b.server.isServing :=
  shown_serving h.shown

theorem arrive_held (env : Environment) (b : Bridge) (bytes : Bytes) :
    (b.step env (.arrive bytes)).held = b.held.feed bytes :=
  Decoder.feed_append ..

theorem Alike.arrive (h : Alike sent sent' wrote wrote' b c) (env : Environment)
    (own all : Bytes) :
    Alike (sent ++ own) (sent' ++ all) wrote wrote' (b.step env (.arrive own))
      (c.step env (.arrive all)) := by
  refine ⟨h.shown, h.told, fun hs => ?_, h.hears, h.hears'⟩
  obtain ⟨taken, hplain, hpadded⟩ := h.reading hs
  rw [arrive_held, arrive_held, Decoder.feed_append, Decoder.feed_append]
  exact ⟨taken, hplain.feed own, hpadded.feed all⟩

/-- What neither adds to what is held nor ends the service keeps two bridges alike. -/
theorem Alike.keep (h : Alike sent sent' wrote wrote' b c) (hshown : c'.shown = b'.shown)
    (htold : b'.shown.Told) (hheld : b'.held = b.held) (hheld' : c'.held = c.held)
    (hserving : b'.server.isServing → b.server.isServing) {more more' : Bytes}
    (hhears : b'.supervisor.Hears more) (hhears' : c'.supervisor.Hears more') :
    Alike sent sent' more more' b' c' := by
  refine ⟨hshown, htold, fun hs => ?_, hhears, hhears'⟩
  rw [hheld, hheld']
  exact h.reading (hserving hs)

/-- Output that differs in lines that are no records leaves the bridges alike. -/
theorem Alike.output (h : Alike sent sent' wrote wrote' b c) (env : Environment)
    (own all : List Bytes) (hp : Bytes.Padded True Ended Noise wrote wrote')
    (hp' : Bytes.Padded True Ended Noise (wrote ++ own.flatten) (wrote' ++ all.flatten)) :
    Alike sent sent' (wrote ++ own.flatten) (wrote' ++ all.flatten)
      (b.step env (.output own)) (c.step env (.output all)) := by
  obtain ⟨hhears, hheld, hshown⟩ := output_shown env h.hears own
  obtain ⟨hhears', hheld', hshown'⟩ := output_shown env h.hears' all
  have hnew : newRecords wrote' all = newRecords wrote own := by
    have hgrow := records_padded hp'
    rw [records_grow, records_grow, records_padded hp] at hgrow
    exact List.append_cancel_left hgrow
  refine h.keep ?_ ?_ hheld hheld' ?_ hhears hhears'
  · rw [hshown', hshown, h.shown, hnew]
  · rw [hshown]
    exact h.told
  · exact (congrArg (·.server.isServing) hshown).symm.trans

theorem Alike.outputEnds (h : Alike sent sent' wrote wrote' b c) (env : Environment)
    (hp : Bytes.Padded False Ended Noise wrote wrote') :
    Alike sent sent' wrote wrote' (b.step env .outputEnds) (c.step env .outputEnds) := by
  obtain ⟨hhears, hheld, hshown⟩ := outputEnds_shown env h.hears
  obtain ⟨hhears', hheld', hshown'⟩ := outputEnds_shown env h.hears'
  have hlast : records (LineDecoder.feed {} wrote').drain.2.finish.1 =
      records (LineDecoder.feed {} wrote).drain.2.finish.1 := by
    have hall := records_readings hp
    rw [← LineDecoder.drain_finish, ← LineDecoder.drain_finish, records_append, records_append,
      records_padded hp] at hall
    exact List.append_cancel_left hall
  refine h.keep ?_ ?_ hheld hheld' ?_ hhears hhears'
  · rw [hshown', hshown, h.shown, hlast]
  · rw [hshown]
    exact h.told
  · exact (congrArg (·.server.isServing) hshown).symm.trans

theorem Alike.quiet (h : Alike sent sent' wrote wrote' b c) (hq : move.isQuiet)
    (env : Environment) :
    Alike sent sent' wrote wrote' (b.step env move) (c.step env move) := by
  obtain ⟨hshown, hheld, hhears⟩ := step_quiet hq env b
  obtain ⟨hshown', hheld', hhears'⟩ := step_quiet hq env c
  refine h.keep ?_ ?_ hheld hheld' ?_ (hhears h.hears) (hhears' h.hears')
  · rw [hshown', hshown, h.shown]
  · rw [hshown]
    exact h.told.step env move
  · intro hs
    exact Shown.step_serving ((congrArg (·.server.isServing) hshown).symm.trans hs)

/-- Two bridges that hold the same requests fetch the same input. Only at the end of the stream they
may differ in whether that is the end of a frame. -/
inductive Agreed (b b' c c' : Bridge) : Option Server.Input → Option Server.Input → Prop
  | request (r : Request) : Decoder.Yields [r] b.held b'.held → Decoder.Yields [r] c.held c'.held →
      Agreed b b' c c' (some (.request r)) (some (.request r))
  | broken : Agreed b b' c c' (some .broken) (some .broken)
  | ended (clean clean' : Bool) : Agreed b b' c c' (some (.ended clean)) (some (.ended clean'))
  | nothing : Decoder.Yields [] b.held b'.held → Decoder.Yields [] c.held c'.held →
      Agreed b b' c c' none none

/-- Bridges that hold the same requests find the same input. -/
theorem Fetched.agreed {input input' : Option Server.Input} (hf : Fetched b b' input)
    (hf' : Fetched c c' input')
    (hrequests : requests c.held.drain.1 = requests b.held.drain.1)
    (herror : c.held.drain.2.1 = b.held.drain.2.1) (hended : c.inputEnded = b.inputEnded) :
    Agreed b b' c c' input input' := by
  cases hf with
  | request r hy =>
    have hfirst := hrequests.trans hy.now.1
    cases hf' with
    | request r' hy' =>
      have hsame := hy'.now.1.symm.trans hfirst
      obtain ⟨rfl, _⟩ := List.cons.inj hsame
      exact .request r' hy hy'
    | broken hnone | spent _ hnone => cases hnone.symm.trans hfirst
  | broken hnone hsome =>
    cases hf' with
    | request r' hy' => cases (hy'.now.1.symm.trans hrequests).trans hnone
    | broken => exact .broken
    | spent _ _ hend => simp [← herror, hend] at hsome
  | spent clean hnone hend hy =>
    cases hf' with
    | request r' hy' => cases (hy'.now.1.symm.trans hrequests).trans hnone
    | broken _ hsome => simp [herror, hend] at hsome
    | spent clean' _ _ hy' =>
      rw [hended]
      cases b.inputEnded with
      | true => exact .ended clean clean'
      | false => exact .nothing hy hy'

/-- Handling an input that both have fetched keeps two bridges alike, if requests are served
after it only where those that were fetched are the next ones. -/
theorem Alike.handle (h : Alike sent sent' wrote wrote' b c) (env : Environment)
    (hb : b'.shown = b.shown ∧ b'.supervisor = b.supervisor)
    (hc : c'.shown = c.shown ∧ c'.supervisor = c.supervisor) {input input' : Server.Input}
    (hsame : b.shown.handle env input' = b.shown.handle env input)
    (hreading : (b'.handle env input).server.isServing → ∃ taken,
      Decoder.Yields taken (.feed {} sent) b'.held ∧
        Decoder.Yields taken (.feed {} sent') c'.held) :
    Alike sent sent' wrote wrote' (b'.handle env input) (c'.handle env input') := by
  refine ⟨?_, ?_, ?_, ?_, ?_⟩
  · rw [handle_shown, handle_shown, hb.1, hc.1, h.shown, hsame]
  · rw [handle_shown, hb.1]
    exact h.told.handle env input
  · rw [handle_held, handle_held]
    exact hreading
  · exact hb.2.symm ▸ h.hears
  · exact hc.2.symm ▸ h.hears'

/-- A request that both bridges find next is handled alike by both. -/
theorem Alike.request (h : Alike sent sent' wrote wrote' b c) (env : Environment)
    (hp : Bytes.Padded True Framed Spoiled sent sent')
    (hshort : (Decoder.feed {} sent).ShortHeaders) :
    Alike sent sent' wrote wrote' (b.step env .request) (c.step env .request) := by
  by_cases hs : b.server.isServing
  · have hs' := h.serving.trans hs
    obtain ⟨taken, hplain, hpadded⟩ := h.reading hs
    obtain ⟨hrequests, herror⟩ := Decoder.drain_padded hp
    rw [hplain.now.1, hpadded.now.1] at hrequests
    rw [hplain.now.2, hpadded.now.2] at herror
    have hfetched := fetch_fetched env b hs (hplain.short hshort)
    have hfetched' := fetch_fetched env c hs' (hpadded.short (hshort.padded hp))
    have hagreed := hfetched.agreed hfetched' (List.append_cancel_left hrequests) herror
      (congrArg Shown.inputEnded h.shown)
    have hb := And.intro (fetch_shown env b) (fetch_supervisor env b)
    have hc := And.intro (fetch_shown env c) (fetch_supervisor env c)
    simp only [step]
    generalize b.fetch env = found at hagreed hb ⊢
    generalize c.fetch env = found' at hagreed hc ⊢
    obtain ⟨input, b'⟩ := found
    obtain ⟨input', c'⟩ := found'
    cases hagreed with
    | request r hy hy' =>
      exact h.handle env hb hc rfl fun _ => ⟨taken ++ [r], hplain.trans hy, hpadded.trans hy'⟩
    | broken =>
      refine h.handle env hb hc rfl fun hserving => ?_
      exact absurd rfl (Server.handle_serving hserving).2.1
    | ended clean clean' =>
      refine h.handle env hb hc (Shown.handle_ended ..) fun hserving => ?_
      exact absurd rfl ((Server.handle_serving hserving).2.2 clean)
    | nothing hy hy' =>
      refine ⟨hc.1.trans (h.shown.trans hb.1.symm), hb.1 ▸ h.told, fun _ => ?_, ?_, ?_⟩
      · have hall := hplain.trans hy
        have hall' := hpadded.trans hy'
        exact ⟨taken ++ [], hall, hall'⟩
      · exact hb.2.symm ▸ h.hears
      · exact hc.2.symm ▸ h.hears'
  · have hs' : ¬ c.server.isServing := h.serving ▸ hs
    rw [step, step, fetch_idle hs, fetch_idle hs']
    exact h

theorem Alike.apart (h : Alike sent sent' wrote wrote' b c) (ha : move.isApart)
    (env : Environment) (hp : Bytes.Padded True Framed Spoiled sent sent')
    (hshort : (Decoder.feed {} sent).ShortHeaders) :
    Alike sent sent' wrote wrote' (b.step env move) (c.step env move) := by
  cases move with
  | arrive | output | outputEnds => cases ha
  | request => exact h.request env hp hshort
  | _ => exact h.quiet rfl env

end Steps

/-- Two bridges stay alike in courses that differ only in what is put into the streams. -/
theorem Padding.alike {plain padded : Course} (hp : Padding plain padded)
    (hshort : (Decoder.feed {} (arrived plain)).ShortHeaders) (config : Config)
    (roots : List String) :
    Alike (arrived plain) (arrived padded) (written plain) (written padded)
      ((start config roots).after plain) ((start config roots).after padded) := by
  induction hp with
  | nil => exact start_alike config roots
  | same env move ha hbefore ih =>
    obtain ⟨harriving, hwriting⟩ := apart_brings ha
    simp only [arrived_snoc, written_snoc, harriving, hwriting, List.append_nil] at hshort ⊢
    rw [after_snoc, after_snoc]
    exact (ih hshort).apart ha env hbefore.streams.1 hshort
  | arrive env own all _ _ ih =>
    simp only [arrived_snoc, written_snoc, Move.arriving, Move.writing, List.append_nil] at hshort ⊢
    rw [Decoder.feed_append] at hshort
    rw [after_snoc, after_snoc]
    exact (ih hshort.of_feed).arrive env own all
  | frames env added _ _ ih =>
    have h := (ih hshort).arrive env [] added
    simpa [arrived_snoc, written_snoc, Move.arriving, Move.writing, after_snoc, step] using h
  | output env own all hbefore hafter ih =>
    simp only [arrived_snoc, written_snoc, Move.arriving, Move.writing, List.append_nil] at hshort ⊢
    rw [after_snoc, after_snoc]
    exact (ih hshort).output env own all hbefore.streams.2 hafter
  | lines env added hbefore hafter ih =>
    have h := (ih hshort).output env [] added hbefore.streams.2 (by simpa using hafter)
    simpa [arrived_snoc, written_snoc, Move.arriving, Move.writing, after_snoc, step] using h
  | outputEnds env _ hcomplete ih =>
    simp only [arrived_snoc, written_snoc, Move.arriving, Move.writing, List.append_nil] at hshort ⊢
    rw [after_snoc, after_snoc]
    exact (ih hshort).outputEnds env hcomplete

/-- Frames without a request in the one stream and lines without a record in the other change
nothing: not the session, not what is handled and in which order, not what the front end gets,
number by number, not what the debuggee gets. The debuggee is heard, which ends the first wait of
the handshake, only by a record. -/
theorem unreadable_leaves_no_trace (config : Config) (roots : List String)
    {plain padded : Course} (hp : Padding plain padded)
    (hshort : ∀ block, Decoder.MeetsHeader { buffer := arrived plain } block →
      block.length ≤ 8189) :
    let b := (start config roots).after plain
    let c := (start config roots).after padded
    c.server.session = b.server.session ∧ c.server.stage = b.server.stage ∧
      c.handled.filter Server.Input.carries = b.handled.filter Server.Input.carries ∧
      outward c.effects = outward b.effects ∧
      (∀ room, Outbox.putAll {} room (messages c.effects) =
        Outbox.putAll {} room (messages b.effects)) ∧
      commands c.effects = commands b.effects ∧
      (c.server.session.heard = true →
        ∃ record, Server.Input.report (.record record) ∈ b.handled) := by
  intro b c
  have h := hp.alike hshort config roots
  have hsession : c.server.session = b.server.session := congrArg Shown.session h.shown
  have heffects : outward c.effects = outward b.effects := congrArg Shown.effects h.shown
  have hmessages : messages c.effects = messages b.effects := by
    rw [← Session.pick_outward Session.messages_picks, heffects,
      Session.pick_outward Session.messages_picks]
  have hcommands : commands c.effects = commands b.effects := by
    rw [← Session.pick_outward Session.commands_picks, heffects,
      Session.pick_outward Session.commands_picks]
  refine ⟨hsession, congrArg Shown.stage h.shown, congrArg Shown.handled h.shown, heffects,
    fun room => by rw [hmessages], hcommands, fun hheard => ?_⟩
  obtain ⟨record, hmem⟩ := h.told ((congrArg Session.heard hsession).symm.trans hheard)
  exact ⟨record, List.mem_of_mem_filter hmem⟩

/-- A frame with a request, one with an object that is none, and a line without a record. -/
def askingFrame : Bytes :=
  frame (.ofString "\x7b\"seq\":1,\"type\":\"request\",\"command\":\"threads\"\x7d")

def emptyFrame : Bytes :=
  frame (.ofString "\x7b\x7d")

def idleTalk : Bytes :=
  Bytes.ofString "no record" ++ [lineFeed]

def calm : Environment where
  now := 0
  spawn := fun _ => none
  accepts := true
  hasExited := false

theorem idle_talk_leaves_no_trace :
    let b := (start {} []).after
      [(calm, .arrive askingFrame), (calm, .request), (calm, .output []), (calm, .report)]
    let c := (start {} []).after
      [(calm, .arrive (emptyFrame ++ askingFrame)), (calm, .request), (calm, .output [idleTalk]),
        (calm, .report)]
    c.server.session = b.server.session ∧
      Outbox.putAll {} none (messages c.effects) = Outbox.putAll {} none (messages b.effects) := by
  intro b c
  have hspoiled : Spoiled emptyFrame := ⟨_, _, rfl, rfl, by decide, _, rfl⟩
  have hnoise : Noise idleTalk := ⟨_, by decide, .notRecord "no record" _ rfl rfl, rfl⟩
  have hframes : Bytes.Padded True Framed Spoiled askingFrame (emptyFrame ++ askingFrame) :=
    .added hspoiled (.rest askingFrame)
  have hlines : Bytes.Padded True Ended Noise [] (idleTalk ++ []) := .added hnoise (.rest [])
  have harrived := Padding.nil.arrive calm askingFrame (emptyFrame ++ askingFrame) hframes
  have hasked := harrived.same calm .request rfl
  have htalked := hasked.output calm [] [idleTalk] hlines
  have hreported := htalked.same calm .report rfl
  have hshort : ∀ block, Decoder.MeetsHeader { buffer := askingFrame ++ [] } block →
      block.length ≤ 8189 := by
    intro block hm
    have hlength : (askingFrame ++ []).length ≤ 8189 := by decide
    exact Nat.le_trans hm.length_le hlength
  obtain ⟨hsession, _, _, _, hbytes, _⟩ := unreadable_leaves_no_trace {} [] hreported hshort
  exact ⟨hsession, hbytes none⟩

end Bridge
end DebugAdapter
