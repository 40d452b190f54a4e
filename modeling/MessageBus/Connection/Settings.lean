/-
Reading the settings of a connection from host data. Every setting has a default, so a partial configuration gives the
defaults for what it leaves out.
-/
import MessageBus.Connection.Config
import MessageBus.Data.Read

namespace MessageBus

def ByteOrder.schema : Schema := .enumeration "ByteOrder" [.unit "little", .unit "big"]

namespace Config

/-- the names of the settings and their defaults -/
def schema : Schema :=
  let standard : Config := {}
  .record "BusConfig"
    [ .withDefault "endianness" ByteOrder.schema (.unitVariant "ByteOrder" 0 "little"),
      .withDefault "max_message_size" (.int .usize) (.int .usize standard.maxMessageSize),
      .withDefault "read_chunk_size" (.int .usize) (.int .usize standard.readChunkSize) ] false

/-- the settings in a datum read by `schema` -/
def ofDatum? : Datum → Option Config
  | .record _ [(_, .unitVariant _ order _), (_, .int _ size), (_, .int _ chunk)] =>
    some ⟨if order = 0 then .little else .big, size.toNat, chunk.toNat⟩
  | _ => none

end Config

end MessageBus
