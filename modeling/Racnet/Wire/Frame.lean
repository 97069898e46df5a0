import Racnet.Wire.Message

namespace Racnet.Wire
open Lib

/-- The bytes of a frame: the length of the body and the body. -/
def frameBytes (body : List UInt8) : List UInt8 := beBytes 2 body.length ++ body

def encodeFrame (msg : Message) : Except WireError (List UInt8) := do
  let body ← encodeMessage msg
  .ok (frameBytes body)

structure FrameDecoder where
  buf : List UInt8
  deriving DecidableEq

namespace FrameDecoder

def new : FrameDecoder := ⟨[]⟩

def push (decoder : FrameDecoder) (bytes : List UInt8) : FrameDecoder :=
  ⟨decoder.buf ++ bytes⟩

/-- The next complete body, if there is one, and the decoder without it. -/
def nextBody (decoder : FrameDecoder) : Option (List UInt8) × FrameDecoder :=
  match decoder.buf with
  | high :: low :: rest =>
    let len := ofBe [high, low]
    if rest.length < len then (none, decoder) else (some (rest.take len), ⟨rest.drop len⟩)
  | _ => (none, decoder)

def nextMessage (decoder : FrameDecoder) : Except WireError (Option Message) × FrameDecoder :=
  match decoder.nextBody with
  | (some body, decoder) => ((decodeMessage body).map some, decoder)
  | (none, decoder) => (.ok none, decoder)

end FrameDecoder

end Racnet.Wire
