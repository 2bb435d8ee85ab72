import NfsClient.Rpc.Message

/-!
# Call headers and credentials, as a server reads them

The credential of a call is an `opaque_auth`: a flavor and a body whose form depends on it.  The
client builds the two flavors AUTH_NULL and AUTH_SYS.  The parsers here follow the grammar of
RFC 5531, with the bounds that it sets, and read the header of a call and the identity of the
caller back from what the client encodes.

The client does not check the bounds, so they are assumptions on the credential.
-/

namespace NfsClient.Rpc

open NfsClient.Lib NfsClient.Xdr NfsClient.Lib.Wire

/-! ## Credentials -/

def authFlavorNull : UInt32 := 0
def authFlavorSys : UInt32 := 1

/-- `AuthNull`: flavor 0 and no body. -/
def authNull : OpaqueAuth := { flavor := authFlavorNull, body := [] }

/-- `AuthSys`: a stamp, the name of the client machine, the effective uid and gid, and the
supplementary groups. -/
structure AuthSys where
  stamp : UInt32
  machineName : Bytes
  uid : UInt32
  gid : UInt32
  gids : List UInt32
deriving DecidableEq

namespace AuthSys

/-- `AuthSys.body`. -/
def body (c : AuthSys) : Bytes :=
  [Encoder.uint32 c.stamp, Encoder.string c.machineName, Encoder.uint32 c.uid,
    Encoder.uint32 c.gid, Encoder.uint32 (UInt32.ofNat c.gids.length),
    c.gids.flatMap Encoder.uint32].flatten

/-- `AuthSys.OpaqueAuth`. -/
def opaqueAuth (c : AuthSys) : OpaqueAuth := { flavor := authFlavorSys, body := c.body }

/-- The bounds of the two fields of variable length. -/
def Fits (c : AuthSys) : Prop := c.machineName.length ≤ 255 ∧ c.gids.length ≤ 16

end AuthSys

/-- Who makes a call. -/
inductive Principal
  | null
  | sys (c : AuthSys)
deriving DecidableEq

namespace Principal

/-- The credential with which the client makes calls. -/
def opaqueAuth : Principal → OpaqueAuth
  | null => authNull
  | sys c => c.opaqueAuth

def Fits : Principal → Prop
  | null => True
  | sys c => c.Fits

end Principal

/-! ## The grammar -/

namespace Grammar

/-- An `opaque_auth`. -/
def opaqueAuth : Parser OpaqueAuth := do
  let flavor ← Parser.uint
  let body ← Parser.opaqueVar
  Parser.guard (body.length ≤ 400)
  return { flavor, body }

/-- A `call_body` behind the transaction id, up to the arguments of the procedure; CALL is 0 and
the version of the protocol 2. -/
def callHeader : Parser CallHeader := do
  let xid ← Parser.uint
  let mtype ← Parser.uint
  Parser.guard (mtype = 0)
  let rpcvers ← Parser.uint
  Parser.guard (rpcvers = 2)
  let prog ← Parser.uint
  let vers ← Parser.uint
  let proc ← Parser.uint
  let cred ← opaqueAuth
  let verf ← opaqueAuth
  return { xid, prog, vers, proc, cred, verf }

/-- The `authsys_parms`. -/
def authSys : Parser AuthSys := do
  let stamp ← Parser.uint
  let machineName ← Parser.opaqueVar
  Parser.guard (machineName.length ≤ 255)
  let uid ← Parser.uint
  let gid ← Parser.uint
  let gids ← Parser.array Parser.uint
  Parser.guard (gids.length ≤ 16)
  return { stamp, machineName, uid, gid, gids }

/-- The caller that a credential stands for. -/
def principal (cred : OpaqueAuth) : Option Principal :=
  if cred.flavor = 0 then some .null
  else if cred.flavor = 1 then
    match authSys cred.body with
    | some (c, []) => some (.sys c)
    | _ => none
  else none

/-! ## Reading back what the client encodes -/

lemma parses_opaqueAuth {a : OpaqueAuth} (h : a.body.length ≤ 400) :
    Parses opaqueAuth a.encode a := by
  have hbody : Parses Parser.opaqueVar (Encoder.varOpaque a.body) a.body := by
    rw [Encoder.varOpaque_eq]
    exact parses_opaqueVar (by omega)
  exact (parses_uint a.flavor).bind (hbody.bind (.silent (parses_guard h) (.pure _)))

lemma parses_callHeader {h : CallHeader} (hcred : h.cred.body.length ≤ 400)
    (hverf : h.verf.body.length ≤ 400) : Parses callHeader h.encode h :=
  (parses_uint h.xid).bind ((parses_uint 0).bind (.silent (parses_guard rfl)
    ((parses_uint 2).bind (.silent (parses_guard rfl)
      ((parses_uint h.prog).bind ((parses_uint h.vers).bind ((parses_uint h.proc).bind
        ((parses_opaqueAuth hcred).bind ((parses_opaqueAuth hverf).bind (.pure _))))))))))

lemma parses_authSys {c : AuthSys} (h : c.Fits) : Parses authSys c.body c := by
  have hname : Parses Parser.opaqueVar (Encoder.string c.machineName) c.machineName := by
    rw [Encoder.string_eq]
    exact parses_opaqueVar (by have := h.1; omega)
  have hgids : Parses (Parser.array Parser.uint) (array Encoder.uint32 c.gids) c.gids := by
    have hwords : ∀ g ∈ c.gids, Parses Parser.uint (Encoder.uint32 g) (id g) :=
      fun g _ => parses_uint g
    have := parses_array (by have := h.2; omega) hwords
    rwa [List.map_id] at this
  refine .of_eq ((parses_uint c.stamp).bind (hname.bind (.silent (parses_guard h.1)
    ((parses_uint c.uid).bind ((parses_uint c.gid).bind (hgids.bind
      (.silent (parses_guard h.2) (.pure _)))))))) ?_
  simp [AuthSys.body, array, Encoder.uint32_eq]

/-- The body of a credential within its bounds is within the bound of an `opaque_auth`. -/
lemma length_body_le {c : AuthSys} (h : c.Fits) : c.body.length ≤ 400 := by
  have hname := h.1
  have hgids := h.2
  have hpad := Encoder.padded_lt c.machineName.length
  simp only [AuthSys.body, List.flatten_cons, List.flatten_nil, List.length_append,
    Encoder.length_uint32, Encoder.length_string, Encoder.length_words, List.length_nil]
  omega

lemma length_opaqueAuth_le {p : Principal} (h : p.Fits) : p.opaqueAuth.body.length ≤ 400 := by
  cases p with
  | null => exact Nat.zero_le _
  | sys c => exact length_body_le h

/-- The identity of the caller is read back from its credential. -/
lemma principal_opaqueAuth {p : Principal} (h : p.Fits) : principal p.opaqueAuth = some p := by
  cases p with
  | null => rfl
  | sys c =>
      have hbody : authSys c.body = some (c, []) := by
        have := parses_authSys h []
        simpa using this
      show (match authSys c.body with | some (c, []) => some (Principal.sys c) | _ => none) = _
      rw [hbody]

end Grammar

end NfsClient.Rpc
