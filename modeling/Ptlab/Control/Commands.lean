/-
What `BleControlClient.command` sends is what a `LineParser` reads.

The two know nothing of one another. The checks of `command` are on the text:
not empty, trimmed, no line ending in it, at most `MAX_CONTROL_LINE` octets of
UTF-8. The parser's rules are on the octets: the limit, the newline, a carriage
return in front of it, lines that are empty. `lineText_encoded` is where they
meet: the octets of an accepted command have no newline among them and no
carriage return at the end, so the line is the command.
-/
import Ptlab.Control.Feeds
import Ptlab.Control.Session

set_option autoImplicit false

namespace Ptlab.Control

/-! ## One command -/

/-- What an accepted command is like. -/
theorem refusal_none {command : String} (h : refusal command = none) :
    command ≠ "" ∧ LINE_FEED ∉ command.toList ∧ RETURN ∉ command.toList ∧
      (encoded command).length ≤ MAX_CONTROL_LINE := by
  unfold refusal at h
  split_ifs at h with htext hlength
  simp only [not_or] at htext
  exact ⟨htext.1, htext.2.2.1, htext.2.2.2, by omega⟩

theorem newline_notMem_encoded {command : String} (h : refusal command = none) :
    NEWLINE ∉ encoded command := by
  intro hmem
  exact (refusal_none h).2.1 (Utf8.ascii_mem_encode (by decide) hmem)

/-- There is no carriage return to take away. -/
theorem stripReturn_encoded {command : String} (h : refusal command = none) :
    stripReturn (encoded command) = encoded command := by
  unfold stripReturn
  rw [if_neg]
  intro hlast
  exact (refusal_none h).2.2.1
    (Utf8.ascii_mem_encode (by decide) (List.mem_of_getLast? hlast))

/-- **The line of an accepted command is the command.** -/
theorem lineText_encoded {command : String} (h : refusal command = none) :
    lineText (encoded command) = some command := by
  have hdecode : Utf8.decodeStrict (encoded command) = some command.toList :=
    Utf8.decodeStrict_eq_some.mpr rfl
  unfold lineText
  rw [stripReturn_encoded h, hdecode, Option.map_some, String.ofList_toList]

theorem fine_encoded {command : String} (h : refusal command = none) :
    Fine MAX_CONTROL_LINE (encoded command) := by
  refine ⟨(refusal_none h).2.2.2, ?_⟩
  rw [lineText_encoded h]
  simp

/-! ## Any number of them -/

theorem texts_encoded {commands : List String} (h : ∀ command ∈ commands, refusal command = none) :
    texts (commands.map encoded) = commands := by
  induction commands with
  | nil => rfl
  | cons command commands ih =>
      rw [List.forall_mem_cons] at h
      have hne : command ≠ "" := (refusal_none h.1).1
      have hrest := ih h.2
      unfold texts at hrest ⊢
      rw [List.map_cons, List.filterMap_cons_some (lineText_encoded h.1),
        List.filter_cons_of_pos (by simpa using hne), hrest]

/-- **Accepted commands, however they are cut.** A parser with the limit of the client
raises nothing, returns them and keeps nothing. -/
theorem feeds_encoded {commands : List String} (h : ∀ command ∈ commands, refusal command = none)
    {p : LineParser} (hlimit : p.maximum_line = MAX_CONTROL_LINE) (hempty : p.buffer = [])
    {chunks : List (List UInt8)} (hchunks : chunks.flatten = joinLines (commands.map encoded)) :
    (∀ e, .error e ∉ (p.feeds chunks).1) ∧ p.returned chunks = commands ∧
      (p.feeds chunks).2.buffer = [] := by
  have hbounded : p.Bounded := by
    refine ⟨?_, ?_⟩
    · rw [hempty]
      exact List.not_mem_nil
    · rw [hempty]
      exact Nat.zero_le _
  have hnew : ∀ raw ∈ commands.map encoded, NEWLINE ∉ raw := by
    intro raw hraw
    obtain ⟨command, hcommand, rfl⟩ := List.mem_map.mp hraw
    exact newline_notMem_encoded (h command hcommand)
  -- what is fed is terminated lines and nothing behind them
  have hstream := terminated_joinLines hnew []
  have hrest : NEWLINE ∉ ([] : List UInt8) := List.not_mem_nil
  rw [terminated_open hrest, unterminated_open hrest, List.append_nil, List.append_nil] at hstream
  have hall : AllFine p.maximum_line (p.buffer ++ chunks.flatten) := by
    rw [hempty, List.nil_append, hchunks]
    unfold AllFine
    rw [hstream.1, hstream.2, hlimit]
    refine ⟨fun raw hraw => ?_, Nat.zero_le _⟩
    obtain ⟨command, hcommand, rfl⟩ := List.mem_map.mp hraw
    exact fine_encoded (h command hcommand)
  have hfeeds := feeds_fine chunks p hbounded
  obtain ⟨hreturned, hbuffer⟩ := hfeeds.2 hall
  refine ⟨hfeeds.1.mpr hall, ?_, ?_⟩
  · rw [hreturned, hempty, List.nil_append, hchunks, hstream.1, texts_encoded h]
  · rw [hbuffer, hempty, List.nil_append, hchunks, hstream.2]

/-! ## Sessions -/

/-- The commands that pass the checks. -/
def acceptedCommands (calls : List ControlCall) : List String :=
  (calls.map ControlCall.command).filter fun command => (refusal command).isNone

theorem acceptedCommands_accepted (calls : List ControlCall) :
    ∀ command ∈ acceptedCommands calls, refusal command = none := by
  intro command hmem
  exact Option.isNone_iff_eq_none.mp (List.mem_filter.mp hmem).2

section Session

variable {py : Builtins} {server : ℕ → List UInt8}

/-- A call sends its command if it is accepted, and nothing otherwise. -/
theorem call_sent (c : BleControlClient) (script : List Arrival) {call : ControlCall}
    (h : call.send = .ok) :
    (c.call py server script call).2.1.socket.sent =
      c.socket.sent ++ (acceptedCommands [call]).map fun command =>
        encoded command ++ [NEWLINE] := by
  rcases hrefusal : refusal call.command with _ | e
  · have hone : acceptedCommands [call] = [call.command] := by simp [acceptedCommands, hrefusal]
    have hsent := command_sent_wire py server c call.allow_error script hrefusal
    rw [← h] at hsent
    rw [hone]
    exact hsent
  · have hnone : acceptedCommands [call] = [] := by simp [acceptedCommands, hrefusal]
    have hcall : (c.call py server script call).2 = (c, script) :=
      congrArg Prod.snd (command_refused py server c call.allow_error script hrefusal call.send)
    rw [hcall, hnone]
    exact (List.append_nil _).symm

theorem acceptedCommands_cons (call : ControlCall) (calls : List ControlCall) :
    acceptedCommands (call :: calls) = acceptedCommands [call] ++ acceptedCommands calls := by
  unfold acceptedCommands
  rw [← List.filter_append, ← List.map_append, List.singleton_append]

/-- **What a session sends**: the accepted commands of the calls that were made. These
are the first ones, and all of them unless one does not end. -/
theorem session_sent (calls : List ControlCall) : (∀ call ∈ calls, call.send = .ok) →
    ∀ (c : BleControlClient) (script : List Arrival),
      (c.session py server calls script).2.1.socket.sent = c.socket.sent ++
          (acceptedCommands ((c.session py server calls script).1.map CallEvent.call)).map
            (fun command => encoded command ++ [NEWLINE]) ∧
        (c.session py server calls script).1.map CallEvent.call <+: calls ∧
        ((∀ event ∈ (c.session py server calls script).1, event.outcome ≠ .waiting) →
          (c.session py server calls script).1.map CallEvent.call = calls) := by
  induction calls with
  | nil =>
      intro _ c script
      refine ⟨(List.append_nil _).symm, List.prefix_rfl, fun _ => rfl⟩
  | cons call calls ih =>
      intro h c script
      rw [List.forall_mem_cons] at h
      have hfirst := @call_sent py server c script call h.1
      have hevent : (c.call py server script call).1.call = call := rfl
      unfold BleControlClient.session
      rcases hcall : c.call py server script call with ⟨event, c', script'⟩
      rw [hcall] at hfirst hevent
      dsimp only at hfirst hevent ⊢
      subst hevent
      by_cases hwait : event.outcome = .waiting
      · -- a call that never ends is the last one
        rw [if_pos hwait]
        refine ⟨hfirst, List.prefix_append .., fun hnone => ?_⟩
        exact absurd hwait (hnone event (List.mem_singleton.mpr rfl))
      · obtain ⟨hsent, hmade, hall⟩ := ih h.2 c' script'
        rw [if_neg hwait]
        dsimp only
        rw [List.map_cons, acceptedCommands_cons, List.map_append, ← List.append_assoc, ← hfirst]
        refine ⟨hsent, (List.prefix_cons_inj _).mpr hmade, fun hnone => ?_⟩
        rw [hall fun e he => hnone e (List.mem_cons_of_mem _ he)]

end Session

/-- **Accepted commands survive framing.** Whatever a new client's server answers and
however its calls end, the bytes that it has sent for the accepted commands of the
calls made so far are read back as these commands, in order and from any chunks. A call
that is refused changes nothing at all. -/
theorem commands_survive_framing {host : String} {port : ℤ} {timeout : ℚ}
    {transcript : Option (List TranscriptRecord)} {c : BleControlClient}
    (hc : BleControlClient.init host port timeout transcript true = .ok c) (py : Builtins)
    (server : ℕ → List UInt8) (calls : List ControlCall) (h : ∀ call ∈ calls, call.send = .ok)
    (script : List Arrival) :
    (∃ p, LineParser.init MAX_CONTROL_LINE = .ok p ∧ ∀ chunks : List (List UInt8),
      chunks.flatten = (c.session py server calls script).2.1.socket.sent.flatten →
        (∀ e, .error e ∉ (p.feeds chunks).1) ∧
        p.returned chunks =
          acceptedCommands ((c.session py server calls script).1.map CallEvent.call) ∧
        (p.feeds chunks).2.buffer = []) ∧
    (c.session py server calls script).1.map CallEvent.call <+: calls ∧
    ((∀ event ∈ (c.session py server calls script).1, event.outcome ≠ .waiting) →
      (c.session py server calls script).1.map CallEvent.call = calls) ∧
    ∀ (client : BleControlClient) (ahead : List Arrival) (call : ControlCall),
      refusal call.command ≠ none → (client.call py server ahead call).2 = (client, ahead) := by
  obtain ⟨-, hnew⟩ := inSync_start hc server
  obtain ⟨hsent, hmade, hall⟩ := @session_sent py server calls h c script
  refine ⟨⟨⟨MAX_CONTROL_LINE, by decide, []⟩, rfl, fun chunks hchunks => ?_⟩, hmade, hall, ?_⟩
  · refine feeds_encoded (acceptedCommands_accepted _) rfl rfl ?_
    rw [hchunks, hsent, hnew, List.nil_append]
    unfold joinLines
    rw [List.flatMap_map, List.flatMap_def]
  · intro client ahead call hrefused
    obtain ⟨e, hrefusal⟩ := Option.ne_none_iff_exists'.mp hrefused
    exact congrArg Prod.snd
      (command_refused py server client call.allow_error ahead hrefusal call.send)

/-- A command with a space in front, which is refused, and `QUERY` in two chunks. -/
theorem commands_survive_framing_query :
    ∃ p, LineParser.init MAX_CONTROL_LINE = .ok p ∧
      p.returned [[0x51, 0x55], [0x45, 0x52, 0x59, 0x0A]] = ["QUERY"] := by
  have hc : BleControlClient.init "127.0.0.1" 18633 3 none true =
      .ok ⟨"127.0.0.1", 18633, none, ⟨[], []⟩, ⟨MAX_CONTROL_LINE, by decide, []⟩, []⟩ := rfl
  obtain ⟨⟨p, hp, hread⟩, -⟩ := commands_survive_framing hc plain (fun _ => [0x4F, 0x4B])
    [⟨" QUERY", false, .ok⟩, ⟨"QUERY", false, .ok⟩] (by simp) [.bytes 4096]
  obtain ⟨-, hreturned, -⟩ := hread [[0x51, 0x55], [0x45, 0x52, 0x59, 0x0A]] (by decide +kernel)
  exact ⟨p, hp, hreturned.trans (by decide +kernel)⟩

end Ptlab.Control
