import Axess.Session.Data

/-!
# The session registry

Which sessions are valid for a user, as the layer and the service ask it through
`SessionRegistryHandle` (`session/store/handles.rs`). A registry that cannot answer says so:
`liveness` is `unknown`, `register` is `false`, the other calls return the error.
-/

namespace Axess

inductive SessionLiveness where
  | valid | gone | unknown
  deriving DecidableEq, Repr

structure RevocationError where
  deriving DecidableEq, Repr

abbrev Registry := UserId → List SessionId

inductive RegistryCall where
  | liveness (userId : UserId) (id : SessionId)
  | register (userId : UserId) (id : SessionId)
  | invalidateSession (userId : UserId) (id : SessionId)
  | invalidateUser (userId : UserId)
  | heldSessions (userId : UserId)
  deriving DecidableEq, Repr

namespace RegistryCall

abbrev Answer : RegistryCall → Type
  | liveness .. => SessionLiveness
  | register .. => Bool
  | invalidateSession .. => Except RevocationError Unit
  | invalidateUser _ => Except RevocationError Unit
  | heldSessions _ => Except RevocationError (List SessionId)

def failed : (c : RegistryCall) → c.Answer
  | liveness .. => .unknown
  | register .. => false
  | invalidateSession .. => .error ⟨⟩
  | invalidateUser _ => .error ⟨⟩
  | heldSessions _ => .error ⟨⟩

end RegistryCall

namespace Registry

def holds (reg : Registry) (userId : UserId) (id : SessionId) : Bool := (reg userId).contains id

def liveness (reg : Registry) (userId : UserId) (id : SessionId) : SessionLiveness :=
  if reg.holds userId id then .valid else .gone

/-- A session that is registered already keeps its place. -/
def register (reg : Registry) (userId : UserId) (id : SessionId) : Registry :=
  if reg.holds userId id then reg else Function.update reg userId (reg userId ++ [id])

def invalidateSession (reg : Registry) (userId : UserId) (id : SessionId) : Registry :=
  Function.update reg userId ((reg userId).filter (· != id))

def invalidateUser (reg : Registry) (userId : UserId) : Registry :=
  Function.update reg userId []

def perform : (c : RegistryCall) → Registry → c.Answer × Registry
  | .liveness userId id, reg => (reg.liveness userId id, reg)
  | .register userId id, reg => (true, reg.register userId id)
  | .invalidateSession userId id, reg => (.ok (), reg.invalidateSession userId id)
  | .invalidateUser userId, reg => (.ok (), reg.invalidateUser userId)
  | .heldSessions userId, reg => (.ok (reg userId), reg)

theorem liveness_eq_valid {reg : Registry} {u : UserId} {id : SessionId} :
    reg.liveness u id = .valid ↔ reg.holds u id = true := by
  unfold liveness
  split <;> simp_all

theorem liveness_eq_gone {reg : Registry} {u : UserId} {id : SessionId} :
    reg.liveness u id = .gone ↔ reg.holds u id = false := by
  unfold liveness
  split <;> simp_all

@[simp] theorem holds_register (reg : Registry) (u v : UserId) (id i : SessionId) :
    (reg.register u id).holds v i = (reg.holds v i || (u == v && id == i)) := by
  by_cases hin : reg.holds u id = true
  · rw [register, if_pos hin]
    by_cases hu : u = v
    · subst hu
      by_cases hi : id = i
      · subst hi
        simp [hin]
      · simp [hi]
    · simp [hu]
  · rw [register, if_neg hin]
    by_cases hu : u = v
    · subst hu
      by_cases hi : id = i
      · subst hi
        simp [holds]
      · simp [holds, hi, Ne.symm hi]
    · simp [holds, hu, Function.update_of_ne (Ne.symm hu)]

@[simp] theorem holds_invalidateSession (reg : Registry) (u v : UserId) (id i : SessionId) :
    (reg.invalidateSession u id).holds v i = (reg.holds v i && !(u == v && id == i)) := by
  by_cases hu : u = v
  · subst hu
    by_cases hi : id = i
    · subst hi
      simp [holds, invalidateSession]
    · simp [holds, invalidateSession, hi, Ne.symm hi]
  · simp [holds, invalidateSession, hu, Function.update_of_ne (Ne.symm hu)]

@[simp] theorem holds_invalidateUser (reg : Registry) (u v : UserId) (i : SessionId) :
    (reg.invalidateUser u).holds v i = (reg.holds v i && !(u == v)) := by
  by_cases hu : u = v
  · subst hu
    simp [holds, invalidateUser]
  · simp [holds, invalidateUser, hu, Function.update_of_ne (Ne.symm hu)]

end Registry

end Axess
