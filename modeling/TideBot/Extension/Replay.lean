/-
  How often a command id is executed.

  Three things keep a command from being executed twice: the deadline in its
  envelope, the replay cache, and the last sequence number of its session.  The
  deadline can lie in the future, the sequence numbers are forgotten on every
  join, and the cache forgets after five minutes or a thousand commands; so the
  same envelope can be executed again (`replayed_after_ttl`).  What holds is that
  nothing else lets it through: `executed_again`.

  The invariant is that a command once executed is in the cache, with at most as
  many entries after it as commands were executed since (`Remembered`).
-/
import TideBot.Extension.Transport
import TideBot.Protocol.RoundTrip

namespace TideBot

open Lib

variable {numberText : ℚ → Text} {executor : Bool} {t t' : Transport} {value : Json}
  {deviceId : Option Text} {clock : Readings} {r : Handled} {X : Text} {s : ℚ}

/-! ## What handling a command does -/

/-- Did the handling come to the pruning of the replay cache? -/
def Handled.pruned : Handled → Bool
  | .executed _ => true
  | .answered code _ =>
    code ∈ [Text.lit "replayed_command", .lit "out_of_order", .lit "executor_unavailable"]

/-- **What becomes of a command**, if there is an executor. -/
theorem handleInboundCommand_cases
    (h : t.handleInboundCommand numberText true value deviceId clock = (t', r)) :
    (t' = t ∧ r.pruned = false) ∨
    (r.pruned ∧ (∃ code result, r = .answered code result) ∧
      t' = t.pruneReplayCache clock.pruning) ∨
    (r = .executed (.read value) ∧ isCommandRequest numberText value clock.arrival ∧
      (t.pruneReplayCache clock.pruning).seenCommands.get (CommandRequest.read value).id = none ∧
      (t.lastSequenceBySession.get (CommandRequest.read value).sessionId).getD 0 <
        (CommandRequest.read value).sequence ∧
      t' = (t.pruneReplayCache clock.pruning).remember (.read value) clock.seen) := by
  unfold Transport.handleInboundCommand at h
  split_ifs at h with h₁ h₂ h₃
  · obtain ⟨rfl, rfl⟩ := Prod.mk.inj h
    exact Or.inl ⟨rfl, by simp [Transport.invalidResult, Transport.refuse, Handled.pruned]⟩
  · obtain ⟨rfl, rfl⟩ := Prod.mk.inj h
    exact Or.inl ⟨rfl, by simp [Transport.refuse, Handled.pruned]⟩
  · obtain ⟨rfl, rfl⟩ := Prod.mk.inj h
    exact Or.inl ⟨rfl, by simp [Transport.refuse, Handled.pruned]⟩
  · unfold Transport.handleIdentified at h
    split_ifs at h with h₄ h₅ h₆
    · obtain ⟨rfl, rfl⟩ := Prod.mk.inj h
      exact Or.inr (Or.inl ⟨by simp [Transport.refuse, Handled.pruned], ⟨_, _, rfl⟩, rfl⟩)
    · obtain ⟨rfl, rfl⟩ := Prod.mk.inj h
      exact Or.inr (Or.inl ⟨by simp [Transport.refuse, Handled.pruned], ⟨_, _, rfl⟩, rfl⟩)
    · cases h₆
    · obtain ⟨rfl, rfl⟩ := Prod.mk.inj h
      exact Or.inr (Or.inr ⟨rfl, by simpa using h₁, by simpa using h₄, not_le.1 h₅, rfl⟩)

theorem executor_of_executed {request : CommandRequest}
    (h : t.handleInboundCommand numberText executor value deviceId clock =
      (t', .executed request)) : executor = true := by
  unfold Transport.handleInboundCommand at h
  split_ifs at h
  any_goals cases (Prod.mk.inj h).2
  unfold Transport.handleIdentified at h
  split_ifs at h with h₄ h₅ h₆
  any_goals cases (Prod.mk.inj h).2
  simpa using h₆

theorem step_command {o : Option Handled}
    (h : Transport.step numberText executor t (.command value deviceId clock) = some (t', o)) :
    ∃ r, o = some r ∧ t.handleInboundCommand numberText executor value deviceId clock = (t', r) := by
  rcases hres : t.handleInboundCommand numberText executor value deviceId clock with ⟨t₁, r⟩
  simp only [Transport.step, hres, Option.some.injEq, Prod.mk.injEq] at h
  obtain ⟨rfl, rfl⟩ := h
  exact ⟨r, rfl, rfl⟩

/-! ## The replay cache over a run -/

/-- Was a command executed? -/
def wasExecuted (e : Inbound × Option Handled) : Bool := e.2 matches some (.executed _)

/-- Step `e` pruned the cache at a time more than `REPLAY_TTL_MS` after `s`. -/
def Expires (s : ℚ) : Inbound × Option Handled → Prop
  | (.command _ _ clock, some r) => r.pruned ∧ s < clock.pruning - replayTtl
  | _ => False

/-- After the steps `ys` since it was executed at time `s`, command `X` is still in
    the cache, unless it has expired or been crowded out. -/
def Remembered (X : Text) (s : ℚ) (ys : List (Inbound × Option Handled)) (t : Transport) : Prop :=
  (∃ e ∈ ys, Expires s e) ∨ maxReplayEntries ≤ ys.countP wasExecuted ∨
    ∃ pre post, t.seenCommands.entries = pre ++ (X, s) :: post ∧
      post.length ≤ ys.countP wasExecuted

theorem Remembered.mono {ys : List (Inbound × Option Handled)} (h : Remembered X s ys t)
    (e : Inbound × Option Handled) (ht : t'.seenCommands = t.seenCommands) :
    Remembered X s (ys ++ [e]) t' := by
  have hle : ys.countP wasExecuted ≤ (ys ++ [e]).countP wasExecuted := by
    rw [List.countP_append]; omega
  rcases h with ⟨e', he, hx⟩ | h | ⟨pre, post, hs, hlen⟩
  · exact Or.inl ⟨e', List.mem_append_left _ he, hx⟩
  · exact Or.inr (Or.inl (h.trans hle))
  · exact Or.inr (Or.inr ⟨pre, post, ht ▸ hs, hlen.trans hle⟩)

theorem Remembered.prune {ys : List (Inbound × Option Handled)} (h : Remembered X s ys t)
    (hr : r.pruned) (hex : ¬ Expires s (.command value deviceId clock, some r)) :
    Remembered X s ys (t.pruneReplayCache clock.pruning) := by
  rcases h with h | h | ⟨pre, post, hs, hlen⟩
  · exact Or.inl h
  · exact Or.inr (Or.inl h)
  · by_cases hcrowd : maxReplayEntries ≤ post.length
    · exact Or.inr (Or.inl (hcrowd.trans hlen))
    · have hage : ¬ (X, s).2 < clock.pruning - replayTtl := fun hlt => hex ⟨hr, hlt⟩
      obtain ⟨pre', post', hs', hlen'⟩ := Dict.prune_keeps hs hage (not_le.1 hcrowd)
      exact Or.inr (Or.inr ⟨pre', post', hs', hlen'.trans hlen⟩)

theorem Remembered.step {ys : List (Inbound × Option Handled)} {i : Inbound}
    {o : Option Handled} (h : Remembered X s ys t)
    (hs : Transport.step numberText true t i = some (t', o)) :
    Remembered X s (ys ++ [(i, o)]) t' := by
  cases i with
  | command value deviceId clock =>
    obtain ⟨r, rfl, hres⟩ := step_command hs
    by_cases hex : Expires s (.command value deviceId clock, some r)
    · exact Or.inl ⟨_, List.mem_append_right _ (List.mem_singleton.2 rfl), hex⟩
    · rcases handleInboundCommand_cases hres with ⟨rfl, -⟩ | ⟨hr, -, rfl⟩ | ⟨rfl, -, hnew, -, rfl⟩
      · exact h.mono _ rfl
      · exact (h.prune hr hex).mono _ rfl
      · -- the new entry goes to the end
        rcases h.prune rfl hex with ⟨e', he, hx⟩ | hle | ⟨pre, post, he, hlen⟩
        · exact Or.inl ⟨e', List.mem_append_left _ he, hx⟩
        · exact Or.inr (Or.inl (by rw [List.countP_append]; omega))
        · refine Or.inr (Or.inr ⟨pre, post ++ [((CommandRequest.read value).id, clock.seen)], ?_, ?_⟩)
          · rw [Transport.remember, Dict.entries_set_new hnew, he]
            simp
          · rw [List.countP_append, List.length_append]
            exact Nat.add_le_add hlen (by simp [wasExecuted])
  | joinAnswered response deviceId =>
    obtain ⟨rfl, rfl⟩ := Prod.mk.inj (Option.some.inj hs)
    refine h.mono _ ?_
    unfold Transport.joinAnswered
    split
    · split_ifs <;> rfl
    · rfl
  | socketConnected | newSocket | disconnected | stop =>
    obtain ⟨rfl, rfl⟩ := Prod.mk.inj (Option.some.inj hs)
    exact h.mono _ rfl

/-- Step `e` executes a command with id `X`, recorded as seen at time `s`. -/
def ExecutedAt (X : Text) (s : ℚ) : Inbound × Option Handled → Prop
  | (.command _ _ clock, some (.executed request)) => request.id = X ∧ clock.seen = s
  | _ => False

instance (X : Text) (s : ℚ) : DecidablePred (ExecutedAt X s) := fun e => by
  unfold ExecutedAt; split <;> infer_instance

theorem ExecutedAt.spec {i : Inbound} {o : Option Handled} (he : ExecutedAt X s (i, o))
    (hs : Transport.step numberText executor t i = some (t', o)) :
    executor = true ∧ ∃ value deviceId clock, i = .command value deviceId clock ∧
      o = some (.executed (.read value)) ∧ (CommandRequest.read value).id = X ∧ clock.seen = s ∧
      (t.pruneReplayCache clock.pruning).seenCommands.get X = none ∧
      t' = (t.pruneReplayCache clock.pruning).remember (.read value) clock.seen := by
  unfold ExecutedAt at he
  split at he
  · rename_i value deviceId clock request heq
    obtain ⟨rfl, rfl⟩ := Prod.mk.inj heq
    obtain ⟨r, hr, hh⟩ := step_command hs
    cases hr
    obtain rfl := executor_of_executed hh
    rcases handleInboundCommand_cases hh with ⟨-, hp⟩ | ⟨-, ⟨code, result, hc⟩, -⟩ |
      ⟨hc, -, hnew, -, hu⟩
    · cases hp
    · cases hc
    · cases hc
      exact ⟨rfl, value, deviceId, clock, rfl, rfl, he.1, he.2, he.1 ▸ hnew, hu⟩
  · exact he.elim

/-- **When a command id is executed again.**  In every run, whatever arrives,
    disconnects and rejoins, between two executions of commands with the same id
    the cache was pruned at a time more than `REPLAY_TTL_MS` after the first (at
    the latest by the second), or `MAX_REPLAY_ENTRIES` other commands were
    executed. -/
theorem executed_again {t₀ : Transport} {tr xs ys zs : List (Inbound × Option Handled)}
    {e e' : Inbound × Option Handled} {s' : ℚ}
    (h : (transportMachine numberText executor).Run t₀ tr t)
    (htr : tr = xs ++ e :: ys ++ e' :: zs) (he : ExecutedAt X s e) (he' : ExecutedAt X s' e') :
    (∃ f ∈ ys ++ [e'], Expires s f) ∨ maxReplayEntries ≤ ys.countP wasExecuted := by
  subst htr
  obtain ⟨i, o⟩ := e
  obtain ⟨i', o'⟩ := e'
  rw [List.append_assoc, List.cons_append] at h
  obtain ⟨t₁, t₂, -, -, hs, h⟩ := h.split
  obtain ⟨t₃, t₄, hys, -, hs', -⟩ := h.split
  obtain ⟨rfl, value, deviceId, clock, rfl, rfl, hX, rfl, hnew, rfl⟩ := he.spec hs
  obtain ⟨-, value', deviceId', clock', rfl, rfl, -, -, hnew', -⟩ := he'.spec hs'
  -- after its execution the command is at the end of the cache
  have hrem : Remembered X clock.seen []
      ((t₁.pruneReplayCache clock.pruning).remember (.read value) clock.seen) := by
    subst hX
    exact Or.inr (Or.inr ⟨_, [], Dict.entries_set_new hnew, Nat.le_refl 0⟩)
  have hrun : Remembered X clock.seen ys t₃ :=
    hys.traceInvariant (fun tr t i t' o _ hr hs => hr.step hs) hrem
  by_cases hex : Expires clock.seen (.command value' deviceId' clock', some (.executed (.read value')))
  · exact Or.inl ⟨_, List.mem_append_right _ (List.mem_singleton.2 rfl), hex⟩
  rcases hrun.prune rfl hex with ⟨f, hf, hx⟩ | hle | ⟨pre, post, hent, -⟩
  · exact Or.inl ⟨f, List.mem_append_left _ hf, hx⟩
  · exact Or.inr hle
  · -- the command is still in the cache, so it is not executed again
    have hmem : (X, clock.seen) ∈ (t₃.pruneReplayCache clock'.pruning).seenCommands.entries := by
      rw [hent]; simp
    rw [Dict.mem_entries_iff, hnew'] at hmem
    cases hmem

namespace Sample

/-- The server's answer to a join of device `A` by user `u`. -/
def joined : Inbound :=
  .joinAnswered (.obj [(.lit "ok", .bool true), (.lit "userId", .str (.lit "u")),
    (.lit "deviceId", .str (.lit "A"))]) (.lit "A")

/-- A click with a deadline at 1030 seconds, arriving at `now`. -/
def lateClick (now : ℚ) : Inbound :=
  .command (Broker.requestEnvelope pendingClick (.lit "browser_click") [] 1000 30)
    (some (.lit "A")) ⟨now, now, now, now⟩

end Sample

/-- The executions of command `X` in a trace. -/
def executions (X : Text) (tr : List (Inbound × Option Handled)) : ℕ :=
  tr.countP fun e => match e.2 with
    | some (.executed request) => request.id = X
    | _ => false

/-- The same envelope, inside its deadline, is executed again after six minutes
    and a rejoin. -/
theorem replayed_after_ttl :
    ∃ tr t, (transportMachine Sample.integerText true).Run .initial tr t ∧
      executions (.lit "c") tr = 2 := by
  obtain ⟨⟨tr, t⟩, hm, h⟩ :
      ∃ r ∈ (transportMachine Sample.integerText true).exec (fun _ _ => True) .initial
        [.newSocket, .socketConnected, Sample.joined, Sample.lateClick 0, .disconnected,
          .newSocket, .socketConnected, Sample.joined, Sample.lateClick 360000],
      executions (.lit "c") r.1 = 2 := by
    decide +kernel
  exact ⟨tr, t, Machine.runIn_of_exec hm, h⟩

/-- There the cache was pruned too late for the first execution. -/
theorem executed_again_after_ttl :
    ∃ tr t ys e', (transportMachine Sample.integerText true).Run .initial tr t ∧
      executions (.lit "c") tr = 2 ∧ ys.length = 4 ∧
      ((∃ f ∈ ys ++ [e'], Expires 0 f) ∨ maxReplayEntries ≤ ys.countP wasExecuted) := by
  obtain ⟨⟨tr₁, t₁⟩, hm₁, ⟨e, hl, he⟩, ⟨tr₂, t₂⟩, hm₂, ⟨e', hl', he'⟩, hlen, hx⟩ :
      ∃ r ∈ (transportMachine Sample.integerText true).exec (fun _ _ => True) .initial
        [.newSocket, .socketConnected, Sample.joined, Sample.lateClick 0],
      (∃ e ∈ r.1.getLast?, ExecutedAt (.lit "c") 0 e) ∧
      ∃ r' ∈ (transportMachine Sample.integerText true).exec (fun _ _ => True) r.2
        [.disconnected, .newSocket, .socketConnected, Sample.joined, Sample.lateClick 360000],
      (∃ e ∈ r'.1.getLast?, ExecutedAt (.lit "c") 360000 e) ∧ r'.1.dropLast.length = 4 ∧
        executions (.lit "c") (r.1 ++ r'.1) = 2 := by
    decide +kernel
  have hr : (transportMachine Sample.integerText true).Run .initial (tr₁ ++ tr₂) t₂ :=
    (Machine.runIn_of_exec hm₁).append (Machine.runIn_of_exec hm₂)
  have htr : tr₁ ++ tr₂ = tr₁.dropLast ++ e :: tr₂.dropLast ++ e' :: [] := by
    have h₁ : tr₁.dropLast ++ [e] = tr₁ := List.dropLast_append_getLast? e hl
    have h₂ : tr₂.dropLast ++ [e'] = tr₂ := List.dropLast_append_getLast? e' hl'
    nth_rewrite 1 [← h₁, ← h₂]
    simp
  exact ⟨tr₁ ++ tr₂, t₂, tr₂.dropLast, e', hr, hx, hlen, executed_again hr htr he he'⟩

end TideBot
