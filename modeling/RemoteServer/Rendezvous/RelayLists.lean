import RemoteServer.Fallible
import RemoteServer.Rendezvous.Relays
import RemoteServer.ServerLists

/-!
# The relay lists after a restart

The console checks a list before it is sent over the event queue, and the list is parsed when it
arrives.  What the console shows is the live list, which can be a part of the configured one.

* `Restartable` is the invariant: every list of the server can be written with commas and read
  again, and so can every list on its way.
* `server_lists_survive` says this of a list that was read, of the lists in every run, and of the
  lists that come over the queue.
-/

namespace RemoteServer.Rendezvous.Relays

open RustStd Lts

variable {cfg : Config} {s s' : State} {a : Action} {evs : List Event}

/-- The list was checked before it was put on the queue. -/
def Data.Checked (cfg : Config) : Data → Prop
  | relayServers0 text => ∃ rs, getServers cfg.parseUrl "relay-servers" text = .ok rs
  | relayServers names => Listed cfg.parseUrl names

structure Restartable (cfg : Config) (s : State) : Prop where
  configured : Listed cfg.parseUrl s.relayServers0
  live : Listed cfg.parseUrl s.relayServers
  probe : ∀ {rest up}, s.probe = some (.trying rest up) → Listed cfg.parseUrl (rest ++ up)
  queue : ∀ data ∈ s.queue, data.Checked cfg

theorem Restartable.initial (now : Nat) (db : Database) {rs : List String}
    (h : Listed cfg.parseUrl rs) : Restartable cfg (State.initial now db rs) :=
  ⟨h, h, nofun, nofun⟩

/-- An answer moves a relay from one list of the probe to the other, or drops it. -/
theorem subperm_answer {rest up : List String} {i : Nat} {x : String} (hx : rest[i]? = some x)
    (isUp : Bool) :
    (rest.eraseIdx i ++ if isUp then up ++ [x] else up).Subperm (rest ++ up) := by
  obtain ⟨hlt, rfl⟩ := List.getElem?_eq_some_iff.1 hx
  cases isUp with
  | true =>
    have hmove : (rest.eraseIdx i ++ (up ++ [rest[i]])).Perm
        (rest[i] :: rest.eraseIdx i ++ up) := by
      rw [← List.append_assoc]
      exact List.perm_append_singleton _ _
    exact (hmove.trans ((List.getElem_cons_eraseIdx_perm hlt).append_right up)).subperm
  | false => exact ((List.eraseIdx_sublist rest i).append_right up).subperm

theorem step_restartable (h : Restartable cfg s) (hstep : step cfg s a = some (s', evs)) :
    Restartable cfg s' := by
  cases a with
  | server a =>
    simp only [step] at hstep
    split at hstep
    · cases hstep
    · obtain ⟨y, -, hpair⟩ := Option.map_eq_some_iff.1 hstep
      cases hpair
      exact ⟨h.configured, h.live, h.probe, h.queue⟩
  | spawn =>
    cases hstep
    exact ⟨h.configured, h.live, h.probe, h.queue⟩
  | accept i addr ws =>
    simp only [step] at hstep
    split at hstep
    · obtain ⟨y, -, hpair⟩ := Option.map_eq_some_iff.1 hstep
      cases hpair
      exact ⟨h.configured, h.live, h.probe, h.queue⟩
    · cases hstep
  | console text =>
    simp only [step] at hstep
    split at hstep
    · cases hstep
      exact h
    · rename_i rs hrs
      split at hstep
      · cases hstep
        refine ⟨h.configured, h.live, h.probe, fun data hdata => ?_⟩
        rcases List.mem_append.1 hdata with hdata | hdata
        · exact h.queue data hdata
        · obtain rfl := List.mem_singleton.1 hdata
          exact ⟨rs, hrs⟩
      · cases hstep
  | timer =>
    simp only [step] at hstep
    split at hstep
    · cases hstep
      refine ⟨h.configured, h.live, fun hp => ?_, h.queue⟩
      cases hp
      rw [List.append_nil]
      exact h.configured.subperm List.filter_sublist.subperm
    · cases hstep
      exact h
  | answer i isUp =>
    simp only [step] at hstep
    split at hstep
    · rename_i rest up hprobe
      obtain ⟨x, hx, hpair⟩ := Option.map_eq_some_iff.1 hstep
      cases hpair
      refine ⟨h.configured, h.live, fun hp => ?_, h.queue⟩
      cases hp
      exact (h.probe hprobe).subperm (subperm_answer hx isUp)
    · cases hstep
  | report =>
    simp only [step] at hstep
    split at hstep
    · cases hstep
      refine ⟨h.configured, h.live, fun hp => ?_, h.queue⟩
      cases hp
    · rename_i up _ hprobe
      split at hstep
      · cases hstep
        refine ⟨h.configured, h.live, fun hp => ?_, fun data hdata => ?_⟩
        · cases hp
        rcases List.mem_append.1 hdata with hdata | hdata
        · exact h.queue data hdata
        · obtain rfl := List.mem_singleton.1 hdata
          exact h.probe hprobe
      · cases hstep
    · cases hstep
  | release =>
    simp only [step] at hstep
    split at hstep
    · cases hstep
      refine ⟨h.configured, h.live, fun hp => ?_, h.queue⟩
      cases hp
    · cases hstep
  | recv =>
    simp only [step] at hstep
    split at hstep
    · rename_i text queue hq
      have hqueue : ∀ data ∈ queue, data.Checked cfg := fun data hdata =>
        h.queue data (hq ▸ List.mem_cons_of_mem _ hdata)
      split at hstep
      · rename_i s'' hparse
        cases hstep
        obtain ⟨rs, hrs, rfl⟩ := Fallible.map_eq_ok hparse
        have hlisted := Listed.of_getServers hrs
        exact ⟨hlisted, hlisted, h.probe, hqueue⟩
      · cases hstep
        exact ⟨h.configured, h.live, h.probe, hqueue⟩
    · rename_i names queue hq
      cases hstep
      refine ⟨h.configured, h.queue (.relayServers names) (hq ▸ List.mem_cons_self), h.probe, ?_⟩
      exact fun data hdata => h.queue data (hq ▸ List.mem_cons_of_mem _ hdata)
    · cases hstep
  | rotate =>
    cases hstep
    exact ⟨h.configured, h.live, h.probe, h.queue⟩

theorem run_restartable {now : Nat} {db : Database} {rs : List String}
    (hrs : Listed cfg.parseUrl rs) {tr : List Event}
    (hrun : Run (step cfg) anything (State.initial now db rs) tr s) : Restartable cfg s :=
  hrun.inv_state (.initial now db hrs) fun h _ hstep => step_restartable h hstep

/-- A list that was sent over the queue is parsed as it was when it was checked. -/
theorem recv_checked {text : String} {queue : List Data}
    (hq : s.queue = .relayServers0 text :: queue) {rs : List String}
    (hrs : getServers cfg.parseUrl "relay-servers" text = .ok rs) :
    step cfg s .recv =
      some ({ s with queue := queue, relayServers0 := rs, relayServers := rs }, []) := by
  simp only [step, hq, parseRelayServers, hrs, Except.map]

/-- A list that is read has at most 64 entries, without repetitions and without an empty one: the
distinct pieces of the text, in the order in which they first stand there.  Written with commas
it is read again as it is.  So in every run the configured list and the live one, which the
console shows, can be given to the server when it starts again, and a list from the console
passes its second check and is then both of them. -/
theorem server_lists_survive {cfg : Config} {setting : String} {rs : List String}
    (hrs : getServers cfg.parseUrl "relay-servers" setting = .ok rs) {now : Nat} {db : Database}
    {tr : List Event} {s : State}
    (hrun : Run (step cfg) anything (State.initial now db rs) tr s) :
    (∀ name value servers, getServers cfg.parseUrl name value = .ok servers →
      servers.length ≤ 64 ∧ servers.Nodup ∧ "" ∉ servers ∧ servers = (pieces value).eraseDups ∧
        getServers cfg.parseUrl name (Str.join ',' servers) = .ok servers) ∧
    getServers cfg.parseUrl "relay-servers" (Str.join ',' s.relayServers0) = .ok s.relayServers0 ∧
    getServers cfg.parseUrl "relay-servers" (Str.join ',' s.relayServers) = .ok s.relayServers ∧
    ∀ text queue, s.queue = .relayServers0 text :: queue →
      ∃ sent, getServers cfg.parseUrl "relay-servers" text = .ok sent ∧
        step cfg s .recv =
          some ({ s with queue := queue, relayServers0 := sent, relayServers := sent }, []) := by
  have hinv := run_restartable (Listed.of_getServers hrs) hrun
  refine ⟨fun name value servers h => ?_, hinv.configured.getServers_join,
    hinv.live.getServers_join, fun text queue hq => ?_⟩
  · have hlisted := Listed.of_getServers h
    obtain ⟨-, -, heq, hcount⟩ := getServers_eq_ok_iff.1 h
    exact ⟨hcount, hlisted.nodup, fun hmem => hlisted.ne_empty hmem rfl, heq,
      hlisted.getServers_join⟩
  · obtain ⟨sent, hsent⟩ := hinv.queue (.relayServers0 text) (hq ▸ List.mem_cons_self)
    exact ⟨sent, hsent, recv_checked hq hsent⟩

/-- A list with white space and a repetition, and then one from the console. -/
theorem server_lists_survive_console :
    ∃ s tr, getServers sampleConfig.parseUrl "relay-servers" " r1, r2,r1" = .ok ["r1", "r2"] ∧
      Run (step sampleConfig) anything (State.initial 0 .empty ["r1", "r2"]) tr s ∧
      s.queue = [.relayServers0 "r3 , r1"] ∧
      getServers sampleConfig.parseUrl "relay-servers" (Str.join ',' s.relayServers) =
        .ok s.relayServers ∧
      ∃ sent, getServers sampleConfig.parseUrl "relay-servers" "r3 , r1" = .ok sent ∧
        step sampleConfig s .recv =
          some ({ s with queue := [], relayServers0 := sent, relayServers := sent }, []) := by
  have hread : getServers sampleConfig.parseUrl "relay-servers" " r1, r2,r1" =
      .ok ["r1", "r2"] := by
    decide +kernel
  have hsend : getServers sampleConfig.parseUrl "relay-servers" "r3 , r1" = .ok ["r3", "r1"] := by
    decide +kernel
  have hstep : step sampleConfig (State.initial 0 .empty ["r1", "r2"]) (.console "r3 , r1") =
      some ({ State.initial 0 .empty ["r1", "r2"] with
        queue := [.relayServers0 "r3 , r1"] }, []) := by
    simp only [step, hsend]
    rfl
  have hrun : Run (step sampleConfig) anything (State.initial 0 .empty ["r1", "r2"]) ([] ++ []) _ :=
    .step .start trivial hstep
  obtain ⟨-, -, hlive, hsent⟩ := server_lists_survive hread hrun
  exact ⟨_, _, hread, hrun, rfl, hlive, hsent _ _ rfl⟩

end RemoteServer.Rendezvous.Relays
