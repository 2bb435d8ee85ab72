import NfsClient.Lib.Run
import NfsClient.Lib.Pool
import NfsClient.Lib.BigEndian
import NfsClient.Lib.MachineInt
import NfsClient.Lib.Patch
import NfsClient.Lib.Delivery
import NfsClient.Lib.Reader
import NfsClient.Lib.Wire
import NfsClient.Lib.Writer
import NfsClient.Lib.WordSet
import NfsClient.Lib.Batch
import NfsClient.Lib.Routine
import NfsClient.Lib.Walk
import NfsClient.Lib.Serial
import NfsClient.Lib.HandleTable
import NfsClient.Errors
import NfsClient.Xdr.Decoder
import NfsClient.Xdr.Encoder
import NfsClient.Xdr.Decodes
import NfsClient.Xdr.Consumes
import NfsClient.Xdr.RoundTrip
import NfsClient.Xdr.Emitter
import NfsClient.Xdr.Sticky
import NfsClient.Rpc.Record
import NfsClient.Rpc.Truncated
import NfsClient.Rpc.LengthPrefix
import NfsClient.Rpc.Message
import NfsClient.Rpc.ReplyHeader
import NfsClient.Rpc.CallFormat
import NfsClient.Rpc.Client
import NfsClient.Nfs4.Args
import NfsClient.Nfs4.Results
import NfsClient.Nfs4.Compound
import NfsClient.Nfs4.Resops
import NfsClient.Nfs4.Encode
import NfsClient.Nfs4.RequestFormat
import NfsClient.Nfs4.ReplyFormat
import NfsClient.Nfs4.ReplyDecoding
import NfsClient.Nfs4.Reply
import NfsClient.Nfs4.Session
import NfsClient.Nfs4.Caller
import NfsClient.Nfs4.RetryContract
import NfsClient.Nfs4.Backoff
import NfsClient.Nfs4.Transparent
import NfsClient.Nfs4.Conn
import NfsClient.Nfs4.Transcript
import NfsClient.Nfs4.EnvRun
import NfsClient.Nfs4.Replay
import NfsClient.Nfs4.Decoders
import NfsClient.Nfs4.Conforming
import NfsClient.Nfs4.SlotTable
import NfsClient.Nfs4.SlotCount
import NfsClient.Nfs4.SlotLockstep
import NfsClient.Nfs4.SlotReuse
import NfsClient.Nfs4.Completeness
import NfsClient.Nfs4.Bootstrap
import NfsClient.Nfs4.DialAuto
import NfsClient.Nfs4.SequenceLog
import NfsClient.Nfs4.Remount
import NfsClient.Nfs4.Mutation
import NfsClient.Nfs4.Residue
import NfsClient.Nfs4.ServerRun
import NfsClient.Nfs4.SessionServer
import NfsClient.Nfs4.Atomic
import NfsClient.Nfs4.FileServer
import NfsClient.Nfs4.MethodSpec
import NfsClient.Nfs4.Answers
import NfsClient.Nfs4.RequestSize
import NfsClient.Nfs4.Transport
import NfsClient.Nfs4.OpenSeqid
import NfsClient.Nfs4.OpenOrder
import NfsClient.Nfs4.OpenRetry
import NfsClient.Nfs4.Attr
import NfsClient.Nfs4.AttrBitmap
import NfsClient.Nfs4.AttrList
import NfsClient.Nfs4.Fattr
import NfsClient.Nfs4.BitmapBound
import NfsClient.Nfs4.ResopMatch
import NfsClient.Client.File
import NfsClient.Client.Path
import NfsClient.Client.FS
import NfsClient.Client.Listing
import NfsClient.Client.Chunks
import NfsClient.Client.ByteFile
import NfsClient.Client.FileRefines
import NfsClient.Client.FileRoutine
import NfsClient.Client.Sequential
import NfsClient.Client.Transfer
import NfsClient.Client.Cursor
import NfsClient.Client.OpenFile
import NfsClient.Client.Walk
import NfsClient.Client.ServedFile
import NfsClient.Client.Channel
import NfsClient.Client.Lease
import NfsClient.Client.LeaseLoop
import NfsClient.Client.LeaseServer
import NfsClient.Client.SharedFile
import NfsClient.Client.FileOverWire
import NfsClient.Client.Browse
