import Anunix.Lib.CString

/-!
# The current session

The session record of `kernel/core/auth.c`. The kernel has one: whoever authenticated last is the
principal of every call until the record is replaced or cleared. The scopes of a session, the table
of users and the hashing of their passwords are left out.
-/

namespace Anunix.Auth

/-- How the principal of a session proved who it is (C `enum anx_auth_method`). -/
inductive AuthMethod where
  | none | console | password | key
  deriving DecidableEq, Repr

/-- The current session (C `struct anx_session`). -/
structure Session where
  username : CString
  authMethod : AuthMethod
  active : Bool
  deriving DecidableEq

/-- The zeroed record, which is also what `anx_auth_logout` leaves. -/
def logout : Session where
  username := ⟨[], List.not_mem_nil⟩
  authMethod := .none
  active := false

/-- C `anx_auth_session_begin`. The user name is kept in 64 bytes. -/
def sessionBegin (username : CString) (method : AuthMethod) : Session where
  username := username.take 63
  authMethod := method
  active := method ≠ .none

/-- C `anx_auth_is_key_authenticated`. -/
def Session.isKeyAuthenticated (s : Session) : Bool :=
  s.active && s.authMethod == .key

@[simp]
lemma sessionBegin_isKeyAuthenticated (username : CString) (method : AuthMethod) :
    (sessionBegin username method).isKeyAuthenticated = decide (method = .key) := by
  cases method <;> rfl

end Anunix.Auth
