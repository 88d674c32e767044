import OutboxRelay.Proofs.Dispatch.Accounts
import OutboxRelay.Proofs.Dispatch.FairTurns
import OutboxRelay.Startup.Service
import OutboxRelay.Store.Trial

/-! A start-up that fails. The dispatcher's worker is set going before the consumer and the port are
seen to, and its first tick is there at once: it checks for stuck claims in its second turn and
claims a batch in its third one. So whether a start-up that fails at the consumer or at the port has
claimed anything is a matter of how many turns the worker got by then, and what it has claimed stays
claimed, as there are no turns after the failure. A start-up that fails earlier has asked the store
for nothing. -/

namespace OutboxRelay

variable {σ : Type}

def StoreCall.isClaim : StoreCall → Bool
  | .claim _ => true
  | .published _ | .failed _ _ | .stale _ => false

namespace TrialStore

def claims (s : TrialStore σ) : Nat := s.calls.countP (·.isClaim)

theorem claims_pass {α : Type} (s : TrialStore σ) (call : StoreCall) (fails : Bool)
    (context : String) (request : σ → StoreReply σ α) :
    (s.pass call fails context request).store.claims =
      s.claims + if call.isClaim then 1 else 0 := by
  rw [claims, calls_pass, List.countP_append, List.countP_singleton]
  rfl

end TrialStore

section Asked

variable [Outbox σ]

theorem Cycle.claims_check (relay : Relay) (s : RelayState (TrialStore σ)) :
    (Cycle.check relay s).store.claims = s.store.claims := by
  obtain ⟨journal, checked⟩ := Cycle.check_spec relay s
  rw [checked]
  exact TrialStore.claims_pass ..

theorem Cycle.claims_claim (relay : Relay) (s : RelayState (TrialStore σ)) :
    (Cycle.claim relay s).1.store.claims = s.store.claims + 1 := by
  have state : (Cycle.claim relay s).1 =
      (s.ask fun store time => Outbox.claimNew store time relay.plan.batchSize).2 := by
    unfold Cycle.claim
    split <;> (rename_i asked; rw [asked])
  rw [state]
  exact TrialStore.claims_pass ..

theorem Batch.claims_drain (relay : Relay) (s : RelayState (TrialStore σ)) (b : Batch) :
    (b.drain relay s).1.store.claims = s.store.claims := by
  refine (moves_drain relay s b).keep (fun x => x.1.store.claims = s.store.claims)
    (fun x y move same => ?_) rfl
  cases move with
  | takeUp => exact same
  | goOn _ step => rw [Delivery.store_of_next (Delivery.next_of_step step)]; exact same
  | sleep => exact same
  | settle _ settled =>
    obtain ⟨result, _, settle⟩ := Delivery.settling_of_step settled
    obtain ⟨⟨clock, journal, rfl⟩, _⟩ := Delivery.settle_spec settle
    cases result with
    | ok value => exact (TrialStore.claims_pass ..).trans same
    | error e => exact (TrialStore.claims_pass ..).trans same
  | wake => exact same

end Asked

namespace Poller

variable {p : Poller (TrialStore σ)}

def claims (p : Poller (TrialStore σ)) : Nat := p.session.state.store.claims

def isWaiting {σ : Type} (p : Poller σ) : Bool := p.phase = .idle && !p.hasTick

theorem store_endCycle {σ : Type} (p : Poller σ) (result : CycleResult) :
    (p.endCycle result).session.state.store = p.session.state.store := by
  unfold endCycle
  cases result <;> (dsimp only [note]; split <;> rfl)

theorem claims_lookUp (p : Poller (TrialStore σ)) : p.lookUp.claims = p.claims := by
  unfold lookUp
  split
  · rw [claims, store_endCycle]
    rfl
  · rfl

theorem claims_openCycle (p : Poller (TrialStore σ)) : p.openCycle.claims = p.claims := by
  unfold claims openCycle Session.begin
  dsimp only
  split <;> rfl

/-- What a fresh poller has come to after so many turns with something to do. Nobody has told it
anything. -/
def Stands (asked turns : Nat) (p : Poller (TrialStore σ)) : Prop :=
  match turns with
  | 0 => p.phase = .idle ∧ p.line.pending = false ∧ p.claims = asked
  | 1 => (∃ state, p.Within state .checking) ∧ p.claims = asked
  | 2 => (∃ state, p.Within state .claiming) ∧ p.claims = asked
  | _ => asked < p.claims

theorem Within.claims_eq {state : RelayState (TrialStore σ)} {phase : Phase}
    (h : p.Within state phase) : p.claims = state.store.claims := by
  rw [claims, h.session]
  rfl

theorem Stands.waitTo {asked turns : Nat} (h : p.Stands asked turns) (now : Instant) :
    (p.waitTo now).Stands asked turns := by
  match turns, h with
  | 0, ⟨idle, untold, claims⟩ => exact ⟨idle, untold, claims⟩
  | 1, ⟨⟨state, within⟩, claims⟩ =>
    exact ⟨⟨_, within.cycling, session_waitTo_of_during within.session now⟩, claims⟩
  | 2, ⟨⟨state, within⟩, claims⟩ =>
    exact ⟨⟨_, within.cycling, session_waitTo_of_during within.session now⟩, claims⟩
  | _ + 3, more => exact more

theorem Stands.claims_iff {asked turns : Nat} (h : p.Stands asked turns) :
    asked < p.claims ↔ 3 ≤ turns := by
  match turns, h with
  | 0, ⟨_, _, claims⟩ => omega
  | 1, ⟨_, claims⟩ => omega
  | 2, ⟨_, claims⟩ => omega
  | turns + 3, more => exact iff_of_true more (by omega)

variable [Outbox σ] {relay : Relay}

theorem claims_poll_of_checking {state : RelayState (TrialStore σ)}
    (h : p.Within state .checking) (preference : Preference) :
    (p.poll relay preference).claims = p.claims := by
  rw [(h.check preference).claims_eq, Cycle.claims_check, h.claims_eq]

theorem claims_poll_of_claiming {state : RelayState (TrialStore σ)}
    (h : p.Within state .claiming) (preference : Preference) :
    (p.poll relay preference).claims = p.claims + 1 := by
  rw [poll_cycling h.cycling, claims_lookUp, h.claims_eq, ← Cycle.claims_claim relay state,
    h.session, Session.resume_claiming]
  split <;> (rename_i claimed; rw [claimed]; rfl)

theorem claims_poll_of_delivering {state : RelayState (TrialStore σ)} {batch : Batch}
    (h : p.Within state (.delivering batch)) (preference : Preference) :
    (p.poll relay preference).claims = p.claims := by
  rw [poll_delivering h.cycling h.session, withBatch, claims_lookUp, h.claims_eq,
    ← Batch.claims_drain relay state batch]
  unfold Session.atBatch
  split <;> rfl

theorem le_claims_poll (h : p.Sound) (preference : Preference) :
    p.claims ≤ (p.poll relay preference).claims := by
  by_cases cycling : p.phase = .cycling
  · obtain ⟨state, phase, session, _⟩ := h.during cycling
    cases phase with
    | checking => exact (claims_poll_of_checking ⟨cycling, session⟩ preference).ge
    | claiming =>
      rw [claims_poll_of_claiming ⟨cycling, session⟩]
      exact Nat.le_succ _
    | delivering batch => exact (claims_poll_of_delivering ⟨cycling, session⟩ preference).ge
  · have turn := turn_poll relay h preference
    generalize p.poll relay preference = q at turn
    cases turn with
    | works within => exact absurd within cycling
    | ends within => exact absurd within cycling
    | begins => exact (claims_openCycle p).ge
    | _ => exact Nat.le_refl _

theorem Stands.poll {asked turns : Nat} (h : p.Stands asked turns) (sound : p.Sound)
    (preference : Preference) :
    (p.poll relay preference).Stands asked (turns + if p.isWaiting then 0 else 1) := by
  match turns, h with
  | 0, ⟨idle, untold, claims⟩ =>
    have turn := turn_poll relay sound preference
    generalize p.poll relay preference = q at turn
    cases turn with
    | stops _ told => cases untold.symm.trans told
    | begins _ tick =>
      obtain ⟨state, session⟩ := sound.uncalled (by rw [idle]; nofun)
      have busy : p.isWaiting = false := by simp [isWaiting, tick]
      rw [busy]
      exact ⟨⟨state, rfl, session_openCycle session⟩, (claims_openCycle p).trans claims⟩
    | rests _ _ early =>
      have waiting : p.isWaiting = true := by simp [isWaiting, idle, early]
      rw [waiting]
      exact ⟨idle, untold, claims⟩
    | works cycling => cases idle.symm.trans cycling
    | ends cycling => cases idle.symm.trans cycling
    | stays stopped => cases idle.symm.trans stopped
  | 1, ⟨⟨state, within⟩, claims⟩ =>
    have busy : p.isWaiting = false := by simp [isWaiting, within.cycling]
    rw [busy]
    exact ⟨⟨_, within.check preference⟩, (claims_poll_of_checking within preference).trans claims⟩
  | 2, ⟨⟨state, within⟩, claims⟩ =>
    have busy : p.isWaiting = false := by simp [isWaiting, within.cycling]
    have more : asked < (p.poll relay preference).claims := by
      rw [claims_poll_of_claiming within, claims]
      exact Nat.lt_succ_self asked
    rw [busy]
    exact more
  | turns + 3, more =>
    have still : asked < (p.poll relay preference).claims :=
      Nat.lt_of_lt_of_le more (le_claims_poll sound preference)
    rw [Nat.add_right_comm]
    exact still

end Poller

namespace Service

def isBusy (s : Service σ) : Bool := s.going?.isSome && s.worker.any (!·.isWaiting)

def turn (s : Service σ) : Action → Nat
  | .work _ => if s.isBusy then 1 else 0
  | .proceed | .wait _ => 0

/-! ### Stages of start-up -/

variable {clients : Clients} {env : Environment} {host : Host} {brokers : Brokers}

theorem startWith_of_unprepared {e : StartupError}
    (unprepared : Startup.prepare clients env host = .error e) :
    Startup.startWith clients env host = .error e := by
  simp only [Startup.startWith, unprepared, bind, Except.bind]

theorem startWith_of_unsubscribed {settings : Settings} {e : StartupError}
    (prepared : Startup.prepare clients env host = .ok settings)
    (unsubscribed : Startup.consume clients settings = .error e) :
    Startup.startWith clients env host = .error e := by
  simp only [Startup.startWith, prepared, unsubscribed, bind, Except.bind]

theorem startWith_of_unbound {settings : Settings} {consumer : Bool × Journal}
    (prepared : Startup.prepare clients env host = .ok settings)
    (consumes : Startup.consume clients settings = .ok consumer)
    (unbound : host.binds settings.port = false) :
    Startup.startWith clients env host = .error (.bind settings.port) := by
  simp [Startup.startWith, prepared, consumes, unbound, bind, Except.bind, throw, throwThe,
    MonadExceptOf.throw]

section Stages

variable (clients env host)

/-- All that a service can be while it starts, after so many turns of its worker. -/
inductive Starts (resources : RelayState (TrialStore σ)) : Nat → Service (TrialStore σ) → Prop
  | preparing : Starts resources 0 ⟨.preparing, resources, none⟩
  | refused {e} (unprepared : Startup.prepare clients env host = .error e) :
      Starts resources 0 ⟨.failed e, resources, none⟩
  | subscribing {count settings worker}
      (prepared : Startup.prepare clients env host = .ok settings)
      (sound : worker.Sound) (stands : worker.Stands resources.store.claims count) :
      Starts resources count ⟨.subscribing settings, resources, some worker⟩
  | subscribed {count settings consumer stage worker}
      (prepared : Startup.prepare clients env host = .ok settings)
      (consumes : Startup.consume clients settings = .ok consumer)
      (later : stage = .binding settings ∨ stage = .serving settings)
      (sound : worker.Sound) (stands : worker.Stands resources.store.claims count) :
      Starts resources count ⟨stage, resources, some worker⟩
  | failed {count e worker} (error : Startup.startWith clients env host = .error e)
      (prepared : Startup.prepare clients env host ≠ .error e)
      (stands : worker.Stands resources.store.claims count) :
      Starts resources count ⟨.failed e, resources, some worker⟩

end Stages

variable {resources : RelayState (TrialStore σ)} {count : Nat} {s : Service (TrialStore σ)}

theorem exists_worker (brokers : Brokers) (settings : Settings)
    (resources : RelayState (TrialStore σ)) :
    ∃ worker, Poller.start? (settings.relay brokers) resources false = some worker ∧
      worker.Stands resources.store.claims 0 := by
  have period : 0 < (settings.relay brokers).plan.pollInterval.nanos := by
    have least : 0 < max settings.pollIntervalMs.toNat 1 :=
      Nat.lt_of_lt_of_le Nat.zero_lt_one (Nat.le_max_right _ _)
    exact Nat.lt_min.2 ⟨Nat.mul_pos least (by decide), by decide⟩
  exact ⟨_, dif_pos period, rfl, rfl, rfl⟩

theorem Starts.proceed (h : Starts clients env host resources count s) :
    Starts clients env host resources count (s.proceed clients env host brokers) := by
  cases h with
  | preparing =>
    unfold Service.proceed
    dsimp only
    split
    · rename_i e unprepared
      exact .refused unprepared
    · rename_i settings prepared
      obtain ⟨worker, started, stands⟩ := exists_worker brokers settings resources
      rw [started]
      exact .subscribing prepared (Poller.sound_of_start? started) stands
  | refused unprepared => exact .refused unprepared
  | @subscribing count settings worker prepared sound stands =>
    unfold Service.proceed
    dsimp only
    split
    · rename_i e unsubscribed
      exact .failed (startWith_of_unsubscribed prepared unsubscribed) (by rw [prepared]; nofun)
        stands
    · rename_i consumer consumes
      exact .subscribed prepared consumes (.inl rfl) sound stands
  | @subscribed count settings consumer stage worker prepared consumes later sound stands =>
    rcases later with rfl | rfl
    · unfold Service.proceed
      dsimp only
      split
      · exact .subscribed prepared consumes (.inr rfl) sound stands
      · rename_i unbound
        exact .failed (startWith_of_unbound prepared consumes (Bool.eq_false_iff.2 unbound))
          (by rw [prepared]; nofun) stands
    · exact .subscribed prepared consumes (.inr rfl) sound stands
  | failed error prepared stands => exact .failed error prepared stands

theorem Starts.worker (h : Starts clients env host resources count s) {settings : Settings}
    (going : s.going? = some settings) :
    ∃ worker, s.worker = some worker ∧ worker.Sound ∧
      worker.Stands resources.store.claims count ∧
      ∀ {worker' count'}, worker'.Sound → worker'.Stands resources.store.claims count' →
        Starts clients env host resources count' { s with worker := some worker' } := by
  cases h with
  | preparing => cases going
  | refused => cases going
  | @subscribing count settings worker prepared sound stands =>
    exact ⟨worker, rfl, sound, stands, fun sound' stands' => .subscribing prepared sound' stands'⟩
  | @subscribed count settings consumer stage worker prepared consumes later sound stands =>
    exact ⟨worker, rfl, sound, stands, fun sound' stands' =>
      .subscribed prepared consumes later sound' stands'⟩
  | failed => cases going

theorem Starts.failure (h : Starts clients env host resources count s) {e : StartupError}
    (failed : s.stage = .failed e) :
    Startup.startWith clients env host = .error e ∧
      (Startup.prepare clients env host = .error e → s.store = resources.store) ∧
      (resources.store.claims < s.store.claims ↔ 3 ≤ count) := by
  cases h with
  | preparing => cases failed
  | refused unprepared =>
    cases failed
    exact ⟨startWith_of_unprepared unprepared, fun _ => rfl,
      iff_of_false (Nat.lt_irrefl _) (by decide)⟩
  | subscribing => cases failed
  | subscribed _ _ later => rcases later with rfl | rfl <;> cases failed
  | failed error prepared stands =>
    cases failed
    exact ⟨error, fun unprepared => absurd unprepared prepared, stands.claims_iff⟩

/-! ### Turns of the worker -/

variable [Outbox σ]

def turns (clients : Clients) (env : Environment) (host : Host) (brokers : Brokers)
    (s : Service σ) : List Action → Nat
  | [] => 0
  | action :: rest => s.turn action + turns clients env host brokers
    (s.act clients env host brokers action) rest

theorem Starts.act (h : Starts clients env host resources count s) (action : Action) :
    Starts clients env host resources (count + s.turn action)
      (s.act clients env host brokers action) := by
  cases action with
  | proceed => exact h.proceed
  | work preference =>
    unfold Service.act work
    cases going : s.going? with
    | none =>
      have idle : s.isBusy = false := by simp [isBusy, going]
      simpa [turn, idle] using h
    | some settings =>
      obtain ⟨worker, same, sound, stands, next⟩ := h.worker going
      have busy : s.isBusy = !worker.isWaiting := by simp [isBusy, going, same]
      have polled : (worker.poll (settings.relay brokers) preference).Stands _ _ :=
        stands.poll sound preference
      rw [same, turn, busy]
      refine next (sound.act (.poll preference)) ?_
      cases waiting : worker.isWaiting <;> simpa [waiting] using polled
  | wait now =>
    unfold Service.act wait
    cases going : s.going? with
    | none => exact h
    | some settings =>
      obtain ⟨worker, same, sound, stands, next⟩ := h.worker going
      rw [same]
      exact next (sound.waitTo now) (stands.waitTo now)

theorem Starts.run (h : Starts clients env host resources count s) (actions : List Action) :
    Starts clients env host resources (count + turns clients env host brokers s actions)
      (actions.foldl (Service.act clients env host brokers) s) := by
  induction actions generalizing count s with
  | nil => exact h
  | cons action rest ih =>
    rw [turns, ← Nat.add_assoc]
    exact ih (h.act action)

theorem foldl_of_failed {e : StartupError} (failed : s.stage = .failed e) (later : List Action) :
    later.foldl (Service.act clients env host brokers) s = s := by
  induction later with
  | nil => rfl
  | cons action rest ih =>
    have same : s.act clients env host brokers action = s := by
      cases action <;> simp [Service.act, Service.proceed, work, wait, going?, failed]
    rw [List.foldl_cons, same, ih]

/-- What a start-up that has failed leaves behind. -/
structure LeavesBehind (clients : Clients) (env : Environment) (host : Host) (brokers : Brokers)
    (resources : RelayState (TrialStore σ)) (actions : List Action) (e : StartupError) : Prop where
  error : Startup.startWith clients env host = .error e
  untouched : Startup.prepare clients env host = .error e →
    (run clients env host brokers resources actions).store = resources.store
  /-- The store was asked for a batch exactly if the worker had three turns with something to do. -/
  asked : resources.store.claims < (run clients env host brokers resources actions).store.claims ↔
    3 ≤ turns clients env host brokers (initial resources) actions
  final : ∀ later, run clients env host brokers resources (actions ++ later) =
    run clients env host brokers resources actions

/-- In every environment, whatever the steps of start-up come to, and however the worker's turns
fall between them. -/
theorem leaves_behind {actions : List Action} {e : StartupError}
    (failed : (run clients env host brokers resources actions).stage = .failed e) :
    LeavesBehind clients env host brokers resources actions e := by
  have starts : Starts clients env host resources
      (0 + turns clients env host brokers (initial resources) actions)
      (run clients env host brokers resources actions) := Starts.preparing.run actions
  rw [Nat.zero_add] at starts
  obtain ⟨error, untouched, asked⟩ := starts.failure failed
  refine ⟨error, untouched, asked, fun later => ?_⟩
  rw [run, List.foldl_append]
  exact foldl_of_failed failed later

def plainEnvironment : Environment
  | "DATABASE_URL" => some "postgres://localhost/outbox"
  | _ => none

def busyHost : Host := ⟨fun _ => true, fun _ => false⟩

def silentBrokers : Brokers := fun _ _ _ _ _ => .never

def eagerWorker : List Action :=
  [.proceed, .work .tick, .work .tick, .work .tick, .proceed, .proceed]

def watched : RelayState (TrialStore MemoryStore) :=
  .initial ⟨Session.oneWaiting.store, .none, []⟩

theorem leaves_behind_of_bind :
    (run .standard plainEnvironment busyHost silentBrokers watched eagerWorker).stage =
        .failed (.bind 3120) ∧
      watched.store.claims <
        (run .standard plainEnvironment busyHost silentBrokers watched eagerWorker).store.claims ∧
      run .standard plainEnvironment busyHost silentBrokers watched
          (eagerWorker ++ [.work .tick]) =
        run .standard plainEnvironment busyHost silentBrokers watched eagerWorker := by
  have behind : LeavesBehind .standard plainEnvironment busyHost silentBrokers watched eagerWorker
      (.bind 3120) := leaves_behind rfl
  have turns : turns .standard plainEnvironment busyHost silentBrokers (initial watched)
      eagerWorker = 3 := rfl
  exact ⟨rfl, behind.asked.2 turns.ge, behind.final _⟩

/-- Start-up fails at the port, and the row that waited is in progress for good. -/
theorem row_stuck_after_failure :
    (run .standard plainEnvironment busyHost silentBrokers Session.oneWaiting eagerWorker).stage =
        .failed (.bind 3120) ∧
      (run .standard plainEnvironment busyHost silentBrokers Session.oneWaiting
        eagerWorker).store.rows.map (·.event.status) = [.inProgress] :=
  ⟨rfl, rfl⟩

end Service

end OutboxRelay
