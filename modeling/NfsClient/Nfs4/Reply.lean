import NfsClient.Nfs4.Caller

/-!
# Replies as bytes

The encoding of a COMPOUND4res by a server: the status, an empty tag, and the resops, each
an operation number, a status and the rest of its body.  `scriptEnv` is the environment in
which the server's replies are given as a list.
-/

namespace NfsClient.Nfs4

open NfsClient.Lib NfsClient.Xdr NfsClient.Xdr.Decoder

/-- A 32-bit word, big-endian. -/
def word (v : UInt32) : Bytes := beBytes 4 v.toNat

/-- One `nfs_resop4`. -/
structure Resop where
  op : Opnum
  status : Status
  /-- What follows the status. -/
  body : Bytes := []
deriving DecidableEq

/-- The encoding of a resop. -/
def Resop.bytes (r : Resop) : Bytes := word r.op ++ word r.status ++ r.body

/-- The encoding of a COMPOUND4res with an empty tag. -/
def replyBytes (status : Status) (rs : List Resop) : Bytes :=
  word status ++ word 0 ++ word (UInt32.ofNat rs.length) ++ rs.flatMap Resop.bytes

/-- The environment in which no context is ever done and the transport answers from a list of
replies, one for each compound. -/
def scriptEnv : Env (List (Except Err Bytes)) where
  ctxErr w := (none, w)
  select w := (none, w)
  sleep _ w := (none, w)
  base _ w := (w.headD (.error .eof), w.tail)
  rand w := (.ok default, w)
  hostname w := (.ok [], w)

/-- The network of `scriptEnv` with the given replies to come. -/
def scripted (replies : List Bytes) : Net (List (Except Err Bytes)) :=
  { world := replies.map .ok }

end NfsClient.Nfs4
