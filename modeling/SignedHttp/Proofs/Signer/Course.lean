import SignedHttp.Proofs.Run.Course
import SignedHttp.Signer

/-!
# SignedHttp.Proofs.Signer.Course

A lookup of a credential, cut into steps (`Signer.run_course`). Each thing that is written down is a
step, and so is looking at the cache and the clock, what a supply is going to do, the time that it
takes, and storing its answer. So others may take their turn, among other things, while a supply
takes its time.
-/

namespace SignedHttp

open Run

namespace Provider

/-- Asking a supply. The course is interrupted after the supply has taken its time. -/
def courseSupply (supply : Nat) : Course (Option Credential) := do
  let next ← Course.once (takeRefresh supply)
  match next.sleep with
  | some d => Course.once (Run.sleep .refresh d)
  | none => pure ()
  match next.answer with
  | .ok credential => pure credential
  | .error cause => Course.once (Run.fail { cause })

mutual

def course (secrets : Secrets) (previous : Option Credential) :
    Provider → Course (Option Credential)
  | fixed c => do
    Course.once (note (.consulted (fixed c) previous))
    pure (some c)
  | .secrets => do
    Course.once (note (.consulted .secrets previous))
    Course.once (askSecrets secrets)
  | connectionString given => do
    Course.once (note (.consulted (connectionString given) previous))
    match given with
    | some c => Course.once (askString c)
    | none => Course.once (askSecretString secrets)
  | refresh supply => do
    Course.once (note (.consulted (refresh supply) previous))
    courseSupply supply
  | chain providers => courseFirst secrets previous providers
  | standard providers => courseFirst secrets previous providers

def courseFirst (secrets : Secrets) (previous : Option Credential) :
    List Provider → Course (Option Credential)
  | [] => pure none
  | p :: ps => do
    Course.once (log [Log.debug ("trying credential provider: " ++ p.text)])
    match ← course secrets previous p with
    | some c =>
      Course.once (log [Log.debug ("loaded credential from provider: " ++ p.text)])
      pure (some c)
    | none => courseFirst secrets previous ps

end

theorem run_courseSupply (supply : Nat) : (courseSupply supply).run = askSupply supply := by
  unfold courseSupply askSupply
  rw [Course.run_bind, Course.run_once]
  congr 1
  funext next
  obtain ⟨sleep, answer⟩ := next
  cases sleep <;> cases answer <;> simp

mutual

theorem run_course (secrets : Secrets) (previous : Option Credential) :
    ∀ p : Provider, (course secrets previous p).run = ask secrets previous p
  | fixed c => by
    rw [course, ask, Course.run_bind, Course.run_once]
    rfl
  | .secrets => by
    rw [course, ask, Course.run_bind, Course.run_once, Course.run_once]
  | connectionString (some c) => by
    rw [course, ask, Course.run_bind, Course.run_once, Course.run_once]
  | connectionString none => by
    rw [course, ask, Course.run_bind, Course.run_once, Course.run_once]
  | refresh supply => by
    rw [course, ask, Course.run_bind, Course.run_once, run_courseSupply]
  | chain providers => by
    rw [course, ask]
    exact run_courseFirst secrets previous providers
  | standard providers => by
    rw [course, ask]
    exact run_courseFirst secrets previous providers

theorem run_courseFirst (secrets : Secrets) (previous : Option Credential) :
    ∀ ps : List Provider, (courseFirst secrets previous ps).run = askFirst secrets previous ps
  | [] => by
    rw [courseFirst, askFirst]
    rfl
  | p :: ps => by
    rw [courseFirst, askFirst, Course.run_bind, Course.run_once]
    congr 1
    funext _
    rw [Course.run_bind, run_course secrets previous p]
    congr 1
    funext answer
    cases answer with
    | some c => simp
    | none => exact run_courseFirst secrets previous ps

end

end Provider

namespace Signer

def course (s : Signer) : Course (Option Credential) := do
  let env ← Course.once get
  if Credential.usable env.cache env.clock.now then pure env.cache else do
    Course.once (log [Log.debug "credential is absent or expired, asking provider for a fresh one"])
    let env ← Course.once get
    Course.once (note (.asked env.cache))
    let fresh ← s.provider.course s.secrets env.cache
    Course.once (modify fun env => { env with cache := fresh })
    Course.once (note (.cached fresh))
    pure fresh

theorem run_course (s : Signer) : s.course.run = s.credential := by
  unfold course credential
  rw [Course.run_bind, Course.run_once]
  congr 1
  funext env
  by_cases hu : Credential.usable env.cache env.clock.now = true
  · rw [if_pos hu, if_pos hu]
    rfl
  · rw [if_neg hu, if_neg hu]
    unfold refresh ask
    simp only [Course.run_bind, Course.run_once, Course.run_pure, Provider.run_course, bind_assoc]

end Signer
end SignedHttp
