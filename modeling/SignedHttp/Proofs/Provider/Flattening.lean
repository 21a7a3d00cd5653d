import SignedHttp.Proofs.Signer.Lockstep

/-!
# SignedHttp.Proofs.Provider.Flattening

How sources are nested makes no difference. A source is as good as the list of the parts in it that
have no parts themselves (`Provider.flat`): whoever asks these one after another, past all chains
(`askInTurn`), gets the same answer or the same failure and leaves the same behind, the lines of the
log apart (`ask_flat`). Each part is asked once at most, with the credential that the source as a
whole was given.

Asking a chain adds nothing to asking its parts but lines to the log, and no part can tell what has
been logged. So the two runs go in lockstep up to these lines (`lockstep_flat`), by induction on the
source; where a chain stands in a chain, its parts followed by the other parts are one list
(`askInTurn_append`).
-/

namespace SignedHttp

/-! ## What a history says -/

namespace Event

def isLogged : Event → Bool
  | .logged _ => true
  | _ => false

def consultation? : Event → Option (Provider × Option Credential)
  | .consulted leaf previous => some (leaf, previous)
  | _ => none

/-- Which parts of a source have been asked, and with what. -/
def consultations (events : List Event) : List (Provider × Option Credential) :=
  events.filterMap consultation?

theorem consultations_concat (es : List Event) (e : Event) :
    consultations (es ++ [e]) = consultations es ++ e.consultation?.toList := by
  unfold consultations
  rw [List.filterMap_append]
  cases he : e.consultation? <;> simp [he]

theorem consultations_unlogged (es : List Event) :
    consultations (es.filter fun e => !e.isLogged) = consultations es := by
  unfold consultations
  rw [List.filterMap_filter]
  congr 1
  funext e
  cases e <;> rfl

end Event

/-- The environment as it would be if nothing had been logged. -/
def Environment.unlogged (env : Environment) : Environment :=
  { env with history := env.history.filter fun e => !e.isLogged }

namespace Environment

variable {env env₁ env₂ : Environment}

theorem unlogged_noted_logged (line : Log.Line) :
    (env.noted (.logged line)).unlogged = env.unlogged := by
  simp [unlogged, noted, Event.isLogged]

theorem unlogged_noted {e : Event} (h : e.isLogged = false) :
    (env.noted e).unlogged = env.unlogged.noted e := by
  simp [unlogged, noted, h]

/-- Environments that are the same but for what has been logged. -/
def SameButLog (env₁ env₂ : Environment) : Prop := env₁.unlogged = env₂.unlogged

theorem SameButLog.noted (h : SameButLog env₁ env₂) (e : Event) :
    SameButLog (env₁.noted e) (env₂.noted e) := by
  unfold SameButLog at *
  cases he : e.isLogged with
  | true =>
    cases e with
    | logged line => rw [unlogged_noted_logged, unlogged_noted_logged, h]
    | _ => cases he
  | false => rw [unlogged_noted he, unlogged_noted he, h]

/-- A change that has nothing to do with the history. -/
theorem SameButLog.changed (h : SameButLog env₁ env₂) {f : Environment → Environment}
    (hf : ∀ env, (f env).unlogged = f env.unlogged) : SameButLog (f env₁) (f env₂) := by
  unfold SameButLog at *
  rw [hf, hf, h]

theorem SameButLog.consultations (h : SameButLog env₁ env₂) :
    Event.consultations env₁.trace = Event.consultations env₂.trace := by
  have same := congrArg (fun env => Event.consultations env.trace) h
  simpa [unlogged, trace, Event.consultations_unlogged] using same

end Environment

open Environment (SameButLog)

namespace Run

theorem unison_sameButLog : Unison Likeness.identity SameButLog where
  clock h := congrArg (·.clock) h
  limiter h := congrArg (·.limiter) h
  cache {env₁ env₂} h := by
    rw [show env₁.cache = env₂.cache from congrArg (·.cache) h]
    exact rel_refl (fun _ => rfl) _
  supplies {env₁ env₂} h := by
    rw [show env₁.supplies = env₂.supplies from congrArg (·.supplies) h]
    exact Supplies.Akin.refl _
  logged line h := h.noted _
  asked hp h := by
    rw [eq_of_rel hp]
    exact h.noted _
  consulted leaf hp h := by
    rw [eq_of_rel hp, leaf.eq]
    exact h.noted _
  stored {_ _ c₁ c₂} hc h := by
    rw [eq_of_rel hc]
    exact (h.changed (f := fun env => { env with cache := c₂ }) fun _ => rfl).noted _
  signed hc h := by
    rw [eq_of_rel hc]
    exact h.noted _
  slept {_ _ wait d clock} _ h :=
    (h.changed (f := fun env => { env with clock }) fun _ => rfl).noted _
  supplied {_ _ s₁ s₂} hs h := by
    rw [hs.eq]
    exact h.changed (f := fun env => { env with supplies := s₂ }) fun _ => rfl
  limited limiter h :=
    h.changed (f := fun env => { env with limiter := some limiter }) fun _ => rfl

/-- A line of the log in one of two runs makes no difference. -/
theorem lockstep_remark {α β : Type} {x : Run α} {y : Run β}
    {T : α → β → Environment → Environment → Prop}
    {F : Stop → Stop → Environment → Environment → Prop} (h : Lockstep SameButLog x y T F)
    (line : Log.Line) : Lockstep SameButLog (log [line] >>= fun _ => x) y T F := by
  intro env₁ env₂ hS
  rw [bind_apply, log_apply]
  refine h _ _ ?_
  unfold SameButLog at *
  rw [Environment.unlogged_noted_logged, hS]

end Run

namespace Provider

open Run

/-! ## The parts of a source -/

mutual

/-- The parts of a source that have no parts themselves, from the first to the last. -/
def flat : Provider → List Provider
  | fixed c => [fixed c]
  | secrets => [secrets]
  | connectionString given => [connectionString given]
  | refresh supply => [refresh supply]
  | chain providers => flatAll providers
  | standard providers => flatAll providers

def flatAll : List Provider → List Provider
  | [] => []
  | p :: ps => flat p ++ flatAll ps

end

/-- A source that is pushed in front of a standard source is tried before it. -/
theorem flat_pushFront (front : Provider) (providers : List Provider) :
    (pushFront front (standard providers)).flat = front.flat ++ (standard providers).flat := by
  simp [pushFront, flat, flatAll]

theorem exists_foldl_pushFront (fronts providers : List Provider) :
    ∃ providers', fronts.foldl (fun base front => pushFront front base) (standard providers) =
        standard providers' ∧
      (standard providers').flat = fronts.reverse.flatMap flat ++ (standard providers).flat := by
  induction fronts generalizing providers with
  | nil => exact ⟨providers, rfl, rfl⟩
  | cons front fronts ih =>
    obtain ⟨providers', hfold, hflat⟩ := ih [front, chain providers]
    refine ⟨providers', hfold, ?_⟩
    have pushed := flat_pushFront front providers
    rw [pushFront] at pushed
    rw [hflat, pushed]
    simp

/-- The parts of the standard source with others in front of it. -/
theorem flat_foldl_pushFront (fronts : List Provider) :
    (fronts.foldl (fun base front => pushFront front base) default).flat =
      fronts.reverse.flatMap flat ++ [connectionString none, secrets] := by
  obtain ⟨providers', hfold, hflat⟩ :=
    exists_foldl_pushFront fronts [connectionString none, secrets]
  rw [default, hfold, hflat]
  simp [flat, flatAll]

example : (pushFront (refresh 1) (pushFront (chain [refresh 0, chain []]) default)).flat =
    [refresh 1, refresh 0, connectionString none, secrets] := rfl

/-- A source that has no parts. -/
def isPart : Provider → Bool
  | chain _ | standard _ => false
  | _ => true

mutual

theorem isPart_of_mem_flat : ∀ {p q : Provider}, q ∈ p.flat → q.isPart = true
  | fixed _, _, h | secrets, _, h | connectionString _, _, h | refresh _, _, h => by
    rw [flat] at h
    rw [List.mem_singleton.1 h]
    rfl
  | chain _, _, h | standard _, _, h => by
    rw [flat] at h
    exact isPart_of_mem_flatAll h

theorem isPart_of_mem_flatAll :
    ∀ {ps : List Provider} {q : Provider}, q ∈ flatAll ps → q.isPart = true
  | [], _, h => by cases h
  | _ :: _, _, h => by
    rw [flatAll] at h
    rcases List.mem_append.1 h with h | h
    · exact isPart_of_mem_flat h
    · exact isPart_of_mem_flatAll h

end

/-! ## Asking one part after another -/

/-- Goes on to other sources if there is no credential yet. -/
def orElse (answer : Option Credential) (others : Run (Option Credential)) :
    Run (Option Credential) :=
  match answer with
  | some c => pure (some c)
  | none => others

/-- Asks sources in turn until one has a credential, without a word. -/
def askInTurn (secrets : Secrets) (previous : Option Credential) :
    List Provider → Run (Option Credential)
  | [] => pure none
  | p :: ps => do
    let answer ← ask secrets previous p
    orElse answer (askInTurn secrets previous ps)

variable (secrets : Secrets) (previous : Option Credential)

theorem orElse_orElse (answer : Option Credential) (x y : Run (Option Credential)) :
    (orElse answer x >>= fun answer => orElse answer y) =
      orElse answer (x >>= fun answer => orElse answer y) := by
  cases answer <;> rfl

theorem askInTurn_append (ps qs : List Provider) :
    askInTurn secrets previous (ps ++ qs) =
      (askInTurn secrets previous ps >>= fun answer =>
        orElse answer (askInTurn secrets previous qs)) := by
  induction ps with
  | nil => rfl
  | cons p ps ih =>
    rw [List.cons_append, askInTurn, askInTurn, ih, bind_assoc]
    simp only [orElse_orElse]

theorem askInTurn_singleton (p : Provider) :
    askInTurn secrets previous [p] = ask secrets previous p := by
  have same (answer : Option Credential) : orElse answer (pure none) = pure answer := by
    cases answer <;> rfl
  simp only [askInTurn, same, bind_pure]

/-! ## Nested and flat -/

/-- The same answer or the same failure, and the same left behind but for the log. -/
abbrev Agrees (x y : Run (Option Credential)) : Prop :=
  Lockstep SameButLog x y (Both Eq SameButLog) (Both Eq SameButLog)

theorem agrees_refl (p : Provider) :
    Agrees (ask secrets previous p) (ask secrets previous p) := by
  have same := lockstep_ask unison_sameButLog (Secrets.Akin.refl secrets)
    (rel_refl (fun _ => rfl) previous) (Provider.Akin.refl p)
  exact same.mono (fun _ _ h => h) (fun _ _ _ _ h => ⟨eq_of_rel h.1, h.2⟩) fun _ _ _ _ h => h

mutual

theorem lockstep_flat :
    ∀ p : Provider, Agrees (ask secrets previous p) (askInTurn secrets previous p.flat)
  | fixed c => by
    rw [flat, askInTurn_singleton]
    exact agrees_refl secrets previous (fixed c)
  | .secrets => by
    rw [flat, askInTurn_singleton]
    exact agrees_refl secrets previous .secrets
  | connectionString given => by
    rw [flat, askInTurn_singleton]
    exact agrees_refl secrets previous (connectionString given)
  | refresh supply => by
    rw [flat, askInTurn_singleton]
    exact agrees_refl secrets previous (refresh supply)
  | chain ps => by
    rw [flat, ask]
    exact lockstep_flatAll ps
  | standard ps => by
    rw [flat, ask]
    exact lockstep_flatAll ps

theorem lockstep_flatAll :
    ∀ ps : List Provider, Agrees (askFirst secrets previous ps)
      (askInTurn secrets previous (flatAll ps))
  | [] => by
    rw [askFirst, flatAll]
    exact lockstep_pure fun _ _ hS => ⟨rfl, hS⟩
  | p :: ps => by
    rw [askFirst, flatAll, askInTurn_append]
    refine lockstep_remark ((lockstep_flat p).bind ?_) _
    rintro answer _ env₁ env₂ ⟨rfl, hS⟩
    cases answer with
    | some c =>
      have found : Agrees (pure (some c)) (pure (some c)) :=
        lockstep_pure fun _ _ hS => ⟨rfl, hS⟩
      exact lockstep_remark found _ env₁ env₂ hS
    | none => exact lockstep_flatAll ps env₁ env₂ hS

end

/-! ## Which parts are asked -/

/-- Since `start` some sources have been asked, one after another, each with the same credential. -/
def Asked (start : Environment) (called : List Provider) (env : Environment) : Prop :=
  Event.consultations env.trace =
    Event.consultations start.trace ++ called.map fun p => (p, previous)

variable {start : Environment} {called : List Provider}

theorem keptByAnswering_asked : KeptByAnswering (Asked previous start called) where
  logged line h := by
    unfold Asked at *
    rw [Environment.noted_trace, Event.consultations_concat, h]
    exact List.append_nil _
  sleep _ h := by
    unfold Asked at *
    rw [Environment.woken_trace, Event.consultations_concat, h]
    exact List.append_nil _
  supplies _ h := h

/-- Once a part has been consulted, it answers or fails without asking others. -/
theorem leads_ask_part {P : Environment → Prop} (h : KeptByAnswering P) {p : Provider}
    (part : p.isPart = true) :
    Leads (fun env => P (env.noted (.consulted p previous))) (ask secrets previous p) (fun _ => P)
      P := by
  have consult (leaf : Provider) : Leads (fun env => P (env.noted (.consulted leaf previous)))
      (note (.consulted leaf previous)) (fun _ => P) P := fun _ hP => hP
  cases p with
  | fixed c =>
    rw [ask]
    exact (consult _).bind fun _ => keeps_pure (some c)
  | secrets =>
    rw [ask]
    exact (consult _).bind fun _ => keeps_askSecrets h secrets
  | connectionString given =>
    cases given with
    | some c =>
      rw [ask]
      exact (consult _).bind fun _ => keeps_askString h c
    | none =>
      rw [ask]
      exact (consult _).bind fun _ => keeps_askSecretString h secrets
  | refresh supply =>
    rw [ask]
    exact (consult _).bind fun _ => keeps_askSupply h supply
  | chain _ => cases part
  | standard _ => cases part

theorem leads_ask_asked {p : Provider} (part : p.isPart = true) :
    Leads (Asked previous start called) (ask secrets previous p)
      (fun _ => Asked previous start (called ++ [p])) (Asked previous start (called ++ [p])) := by
  refine (leads_ask_part secrets previous (keptByAnswering_asked previous) part).mono
    (fun env h => ?_) (fun _ _ h => h) fun _ h => h
  unfold Asked at *
  rw [Environment.noted_trace, Event.consultations_concat, h]
  simp [Event.consultation?]

/-- Of some sources those in front have been asked, or all of them if `all` holds. -/
def AskedFront (start : Environment) (called ps : List Provider) (all : Prop)
    (env : Environment) : Prop :=
  ∃ front back, ps = front ++ back ∧ (all → back = []) ∧
    Asked previous start (called ++ front) env

theorem AskedFront.cons {p : Provider} {ps : List Provider} {all : Prop} {env : Environment}
    (h : AskedFront previous start (called ++ [p]) ps all env) :
    AskedFront previous start called (p :: ps) all env := by
  obtain ⟨front, back, hps, hback, asked⟩ := h
  rw [List.append_assoc] at asked
  exact ⟨p :: front, back, by rw [hps]; rfl, hback, asked⟩

/-- Sources without parts are asked from the first to the last, each once, until one has a
credential or fails. -/
theorem leads_askInTurn {ps : List Provider} (parts : ∀ p ∈ ps, p.isPart = true) :
    Leads (Asked previous start called) (askInTurn secrets previous ps)
      (fun answer => AskedFront previous start called ps (answer = none))
      (AskedFront previous start called ps False) := by
  induction ps generalizing called with
  | nil =>
    intro env asked
    exact ⟨[], [], rfl, fun _ => rfl, by rwa [List.append_nil]⟩
  | cons p ps ih =>
    have first : Leads (Asked previous start called) (ask secrets previous p) _ _ :=
      leads_ask_asked secrets previous (parts p List.mem_cons_self)
    have rest : Leads (Asked previous start (called ++ [p])) (askInTurn secrets previous ps) _ _ :=
      ih fun q hq => parts q (List.mem_cons_of_mem p hq)
    rw [askInTurn]
    refine (first.mono (fun _ h => h) (fun _ _ h => h) fun env asked => ?_).bind fun answer => ?_
    · exact ⟨[p], ps, rfl, False.elim, asked⟩
    · cases answer with
      | some c =>
        intro env asked
        exact ⟨[p], ps, rfl, nofun, asked⟩
      | none => exact rest.mono (fun _ h => h) (fun _ _ h => h.cons) fun _ h => h.cons

theorem askedFront_leaves {ps : List Provider} (parts : ∀ p ∈ ps, p.isPart = true)
    (env : Environment) :
    AskedFront previous env [] ps ((askInTurn secrets previous ps).outcome env = .ok none)
      ((askInTurn secrets previous ps).leaves env) := by
  have begins : Asked previous env [] env := by simp [Asked]
  have asks : Leads (Asked previous env []) (askInTurn secrets previous ps) _ _ :=
    leads_askInTurn secrets previous parts
  unfold outcome leaves
  cases ended : askInTurn secrets previous ps env with
  | ok answer mid =>
    obtain ⟨front, back, hps, hback, asked⟩ := asks.ok begins ended
    exact ⟨front, back, hps, fun h => hback (Except.ok.inj h), asked⟩
  | error e mid =>
    obtain ⟨front, back, hps, -, asked⟩ := asks.error begins ended
    exact ⟨front, back, hps, nofun, asked⟩

/-- A source, however it is nested, answers and fails as its parts do when they are asked one after
another, and leaves the same behind but for the log. Each part is asked once at most, with the
credential that the source was given. What is pushed in front of the standard source comes before
it, the last one first. -/
theorem ask_flat (secrets : Secrets) (previous : Option Credential) :
    (∀ (p : Provider) (env : Environment),
      (ask secrets previous p).outcome env = (askInTurn secrets previous p.flat).outcome env ∧
      SameButLog ((ask secrets previous p).leaves env)
        ((askInTurn secrets previous p.flat).leaves env) ∧
      ∃ called rest, p.flat = called ++ rest ∧
        ((ask secrets previous p).outcome env = .ok none → rest = []) ∧
        Event.consultations ((ask secrets previous p).leaves env).trace =
          Event.consultations env.trace ++ called.map fun part => (part, previous)) ∧
    ∀ fronts : List Provider,
      (fronts.foldl (fun base front => pushFront front base) default).flat =
        fronts.reverse.flatMap flat ++ [connectionString none, .secrets] := by
  refine ⟨fun p env => ?_, flat_foldl_pushFront⟩
  have here : SameButLog env env := rfl
  have parts : ∀ q ∈ p.flat, q.isPart = true := fun q hq => isPart_of_mem_flat hq
  obtain ⟨ended, same⟩ := (lockstep_flat secrets previous p).ends here
  obtain ⟨called, rest, hflat, hrest, asked⟩ := askedFront_leaves secrets previous parts env
  refine ⟨ended.eq, same, called, rest, hflat, ?_, ?_⟩
  · rw [ended.eq]
    exact hrest
  · rw [same.consultations]
    exact asked

end Provider
end SignedHttp
