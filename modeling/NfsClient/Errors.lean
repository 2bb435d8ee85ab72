import Mathlib.Data.UInt
import Mathlib.Data.List.Basic

/-!
# Bytes, arrays, status codes and errors

The Go values that every package of the client passes around.  A `[]byte` and a Go
`string` are both byte sequences, so both are `Bytes`; a fixed array `[n]byte` is a byte
sequence that carries its length.  `error` is an open interface in Go; the constructors of
`Err` are the dynamic types and sentinels this client creates or inspects, and `wrap` is
the `%w` verb of `fmt.Errorf`.
-/

namespace NfsClient

/-- A byte sequence: Go's `[]byte` and `string`. -/
abbrev Bytes : Type := List UInt8

/-- A Go array `[n]byte`. -/
structure ByteArr (n : ℕ) where
  /-- The elements. -/
  bytes : Bytes
  /-- There are exactly `n` of them. -/
  length_eq : bytes.length = n
deriving DecidableEq

namespace ByteArr

variable {n : ℕ}

/-- The zero value of `[n]byte`. -/
def zero (n : ℕ) : ByteArr n := ⟨List.replicate n 0, List.length_replicate⟩

instance : Inhabited (ByteArr n) := ⟨zero n⟩

/-- `copy(a[:], src)`: the first bytes of the array are overwritten by those of `src`, as
many as fit; the rest of the array is left as it is. -/
def copyFrom (a : ByteArr n) (src : Bytes) : ByteArr n where
  bytes := src.take n ++ a.bytes.drop src.length
  length_eq := by
    have h := a.length_eq
    simp only [List.length_append, List.length_take, List.length_drop]
    omega

lemma copyFrom_of_length {a : ByteArr n} {src : Bytes} (h : src.length = n) :
    (a.copyFrom src).bytes = src := by
  have ha := a.length_eq
  simp only [copyFrom]
  rw [List.take_of_length_le (by omega), List.drop_of_length_le (by omega), List.append_nil]

@[ext] lemma ext {a b : ByteArr n} (h : a.bytes = b.bytes) : a = b := by
  cases a; cases b; simp_all

end ByteArr

/-! ## Status codes -/

/-- `Status` is the `nfsstat4` result code.  A server may send any 32-bit value. -/
abbrev Status : Type := UInt32

def nfs4Ok : Status := 0
def nfs4errPerm : Status := 1
def nfs4errNoent : Status := 2
def nfs4errAccess : Status := 13
def nfs4errExist : Status := 17
def nfs4errInval : Status := 22
def nfs4errRofs : Status := 30
def nfs4errStale : Status := 70
def nfs4errBadhandle : Status := 10001
def nfs4errNotsupp : Status := 10004
def nfs4errBadtype : Status := 10007
def nfs4errDelay : Status := 10008
def nfs4errExpired : Status := 10011
def nfs4errGrace : Status := 10013
def nfs4errFhexpired : Status := 10014
def nfs4errClidInuse : Status := 10017
def nfs4errNofilehandle : Status := 10020
def nfs4errMinorVersMismatch : Status := 10021
def nfs4errStaleClientid : Status := 10022
def nfs4errStaleStateid : Status := 10023
def nfs4errBadStateid : Status := 10025
def nfs4errBadSeqid : Status := 10026
def nfs4errBadxdr : Status := 10036
def nfs4errOpIllegal : Status := 10044
def nfs4errBadsession : Status := 10052
def nfs4errBadslot : Status := 10053
def nfs4errCompleteAlready : Status := 10054
def nfs4errSeqMisordered : Status := 10063
def nfs4errSequencePos : Status := 10064

/-! ## Errors -/

/-- What `ctx.Err()` returns once a context is done. -/
inductive CtxErr
  /-- `context.Canceled` -/
  | canceled
  /-- `context.DeadlineExceeded` -/
  | deadlineExceeded
deriving DecidableEq, Repr

/-- The errors of the client. -/
inductive Err
  /-- `*nfs4.StatusError` -/
  | status (s : Status)
  /-- `fmt.Errorf("text: %w", e)` -/
  | wrap (text : String) (e : Err)
  /-- `fmt.Errorf("text %q: %w", name, e)` -/
  | wrapName (text : String) (name : Bytes) (e : Err)
  /-- `fmt.Errorf("%w: text", e)` -/
  | wrapped (e : Err) (text : String)
  /-- `fmt.Errorf` or `errors.New` with nothing wrapped -/
  | text (text : String)
  /-- `*fs.PathError` -/
  | path (op : String) (path : Bytes) (e : Err)
  /-- `ctx.Err()` -/
  | ctx (e : CtxErr)
  /-- `io.EOF` -/
  | eof
  /-- `io.ErrUnexpectedEOF` -/
  | unexpectedEOF
  /-- `io.ErrShortWrite` -/
  | shortWrite
  /-- `xdr.ErrLimitExceeded` -/
  | limitExceeded
  /-- `rpc.ErrFragmentTooLarge` -/
  | fragmentTooLarge
  /-- `*rpc.AuthError` -/
  | authError (stat : UInt32)
  /-- `fs.ErrInvalid` -/
  | errInvalid
  /-- `fs.ErrPermission` -/
  | errPermission
  /-- `fs.ErrExist` -/
  | errExist
  /-- `fs.ErrNotExist` -/
  | errNotExist
  /-- `fs.ErrClosed` -/
  | errClosed
deriving DecidableEq, Repr

/-- `Status.Err`: nil for `NFS4_OK`, otherwise a `*StatusError` carrying the code. -/
def statusErr (s : Status) : Option Err := if s = nfs4Ok then none else some (.status s)

@[simp] lemma statusErr_ok : statusErr nfs4Ok = none := rfl

lemma statusErr_of_ne {s : Status} (h : s ≠ nfs4Ok) : statusErr s = some (.status s) := by
  rw [statusErr, if_neg h]

/-- The status of the first `*StatusError` on the chain of wrapped errors: what
`errors.As(err, &se)` finds. -/
def Err.asStatus : Err → Option Status
  | .status s => some s
  | .wrap _ e => e.asStatus
  | .wrapName _ _ e => e.asStatus
  | .wrapped e _ => e.asStatus
  | .path _ _ e => e.asStatus
  | _ => none

/-- `errorHasStatus` reports whether the error wraps a `*StatusError` with the given
status. -/
def errorHasStatus (e : Err) (s : Status) : Bool := e.asStatus == some s

@[simp] lemma asStatus_status (s : Status) : (Err.status s).asStatus = some s := rfl

@[simp] lemma asStatus_wrap (t : String) (e : Err) : (Err.wrap t e).asStatus = e.asStatus := rfl

@[simp] lemma asStatus_ctx (e : CtxErr) : (Err.ctx e).asStatus = none := rfl

/-- `StatusError.Is`: the status codes that stand for a sentinel of `io/fs`. -/
def statusIs (s : Status) : Err → Bool
  | .errNotExist =>
      s = nfs4errNoent || s = nfs4errStale || s = nfs4errFhexpired || s = nfs4errNofilehandle
  | .errExist => s = nfs4errExist
  | .errPermission => s = nfs4errPerm || s = nfs4errAccess || s = nfs4errRofs
  | .errInvalid =>
      s = nfs4errInval || s = nfs4errBadxdr || s = nfs4errBadhandle || s = nfs4errBadtype
  | _ => false

/-- `errors.Is(e, target)` for a sentinel `target`. -/
def Err.is : Err → Err → Bool
  | .status s, target => statusIs s target
  | .wrap _ e, target | .wrapName _ _ e, target | .wrapped e _, target | .path _ _ e, target =>
      e.is target
  | e, target => e = target

end NfsClient
