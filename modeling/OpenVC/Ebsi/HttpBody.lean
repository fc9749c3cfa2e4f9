import OpenVC.Cache
import OpenVC.Python.Codec
import OpenVC.Python.Interpreter

/-!
# The bounded read of a response body (`openvc_ebsi.http`)

`_read_verbatim` reads the chunks of a response one by one, decodes one `gzip` or `deflate` coding
as they come, and counts the wire bytes and the decoded bytes against a cap.
-/

/-!
## A streaming decompressor

The decompression objects of `zlib`, as a state with the calls a reader makes of it, and what their
documentation says: what a stream decodes to is a matter of its bytes and not of the calls they came
in, `max_length` bounds what one call returns, and a call that returns less has consumed its input.
-/

namespace Python

/-- `zlib`: the decompression objects are of the type `σ`. -/
structure Decompressor (σ : Type) where
  /-- `zlib.decompressobj(wbits)`. -/
  decompressobj : Nat → σ
  /-- `d.decompress(data, max_length)` and the object after it, `none` when it raises
  `zlib.error`. -/
  decompress : σ → Bytes → Int → Option (Bytes × σ)
  /-- `d.eof`. -/
  eof : σ → Bool
  /-- `d.unused_data`. -/
  unusedData : σ → Bytes

/-- What the objects of one window size make of the bytes they are handed. -/
structure Decompressor.ChunkAgnostic {σ : Type} (Z : Decompressor σ) (wbits : Nat) where
  /-- What the bytes decode to, up to the first that does not. -/
  output : Bytes → Bytes
  /-- The bytes do not begin a stream. -/
  Corrupt : Bytes → Prop
  /-- What follows the end of the stream, when the bytes hold it. -/
  remainder : Bytes → Option Bytes
  /-- The object has consumed the bytes. -/
  Consumed : σ → Bytes → Prop
  output_prefix : ∀ w c, output w <+: output (w ++ c)
  corrupt_append : ∀ w c, Corrupt w → Corrupt (w ++ c)
  remainder_append : ∀ w c r, remainder w = some r → remainder (w ++ c) = some (r ++ c)
  output_nil : output [] = []
  remainder_nil : remainder [] = none
  start : Consumed (Z.decompressobj wbits) []
  eof_eq : ∀ d w, Consumed d w → Z.eof d = (remainder w).isSome
  unusedData_eq : ∀ d w, Consumed d w → Z.unusedData d = (remainder w).getD []
  error_corrupt : ∀ d w c n, Consumed d w → Z.eof d = false → 0 < n →
    Z.decompress d c n = none → Corrupt (w ++ c)
  length_le : ∀ d c n piece d', 0 < n → Z.decompress d c n = some (piece, d') → piece.length ≤ n
  piece_prefix : ∀ d w c n piece d', Consumed d w → Z.eof d = false → 0 < n →
    Z.decompress d c n = some (piece, d') → output w ++ piece <+: output (w ++ c)
  consumed_of_lt : ∀ d w c n piece d', Consumed d w → Z.eof d = false → 0 < n →
    Z.decompress d c n = some (piece, d') → (piece.length : Int) < n →
    Consumed d' (w ++ c) ∧ ¬ Corrupt (w ++ c) ∧ output (w ++ c) = output w ++ piece

end Python

namespace OpenVC.Ebsi.Http

open Python

/-- `sys.maxsize`. -/
def maxsize : Nat := 2 ^ 63 - 1

/-- A chunk the iterator hands over and `time.monotonic()` when it does. -/
structure Chunk where
  now : PyFloat
  data : Bytes

/-- What the reader uses of an `httpx.Response`: two headers, whether the body was read before, the
chunks of the iterator it reads and the exception that ends the iteration, when one does. -/
structure Response where
  contentEncoding : Option Str
  contentLength : Option Str
  isStreamConsumed : Bool
  chunks : List Chunk
  failure : Option Err := none

/-- `_declared_length(value)`. -/
def declaredLength : Option Str → Option Nat
  | none => none
  | some value =>
    let text := value.strip
    if text.isEmpty || !text.all Str.isDigit then none
    else some (if text.length ≤ 19 then Str.toNat text else 2 ^ 64)

/-- The `wbits` of a coding that is decoded. -/
def windowBits (coding : Str) : Option Nat :=
  if coding = lit "gzip" then some 31 else if coding = lit "deflate" then some 15 else none

section Read

variable {σ : Type} (I : Interpreter) (Z : Decompressor σ)

/-- The coding that `_decoder_for` reads. -/
def codingOf (contentEncoding : Option Str) : Str := I.lower (contentEncoding.getD []).strip

/-- `_decoder_for(content_encoding, url)`. -/
def decoderFor (contentEncoding : Option Str) (url : Str) : Result (Option σ) :=
  if codingOf I contentEncoding = [] ∨ codingOf I contentEncoding = lit "identity" then .ok none
  else
    match windowBits (codingOf I contentEncoding) with
    | some wbits => .ok (some (Z.decompressobj wbits))
    | none => raise .httpUnexpectedEncoding "unsupported Content-Encoding %"
        [.str (contentEncoding.getD []), .str url]

/-- `body += piece` on a `bytearray`, which holds fewer than `sys.maxsize` bytes. -/
def extend (body piece : Bytes) : Result Bytes := do
  raiseIf (maxsize ≤ body.length + piece.length) ⟨.exception, "MemoryError", []⟩
  return body ++ piece

/-- The branch of the loop body that decodes a chunk. -/
def inflate (url : Str) (cap : Int) (decoder : σ) (body chunk : Bytes) : Result (σ × Bytes) := do
  raiseIf (Z.eof decoder) ⟨.malformedRegistryResponse,
    "response has bytes after the end of its compressed stream: %", [.str url]⟩
  let (piece, decoder) ← orRaise
    (Z.decompress decoder chunk (min (cap - body.length + 1) maxsize))
    ⟨.malformedRegistryResponse, "response body does not decode: %", [.str url]⟩
  raiseIf (cap - body.length < piece.length)
    ⟨.httpError, "response exceeds % bytes once decoded", [.int cap, .str url]⟩
  let body ← extend body piece
  raiseIf (!(Z.unusedData decoder).isEmpty) ⟨.malformedRegistryResponse,
    "response has bytes after the end of its compressed stream: %", [.str url]⟩
  return (decoder, body)

/-- What the loop body does with a chunk that is in time and within the cap. -/
def takeChunk (url : Str) (cap : Int) (decoder : Option σ) (body chunk : Bytes) :
    Result (Option σ × Bytes) :=
  match decoder with
  | none => do
    let body ← extend body chunk
    return (none, body)
  | some decoder => do
    let (decoder, body) ← inflate Z url cap decoder body chunk
    return (some decoder, body)

/-- The loop over the chunks. -/
def readChunks (url : Str) (cap : Int) (deadline : PyFloat) :
    Option σ → Nat → Bytes → List Chunk → Result (Option σ × Bytes)
  | decoder, _, body, [] => .ok (decoder, body)
  | decoder, wire, body, chunk :: chunks => do
    raiseIf (PyFloat.lt deadline chunk.now)
      ⟨.httpError, "read exceeded its deadline", [.str url]⟩
    raiseIf (cap < ((wire + chunk.data.length : Nat) : Int))
      ⟨.httpError, "response exceeds % bytes", [.int cap, .str url]⟩
    let (decoder, body) ← takeChunk Z url cap decoder body chunk.data
    readChunks url cap deadline decoder (wire + chunk.data.length) body chunks

/-- The decoder that is used: none for a body that was read before, which is decoded already. -/
def usedDecoder (resp : Response) (decoder : Option σ) : Option σ :=
  if resp.isStreamConsumed then none else decoder

/-- The end of the iteration: the exception it raises, if any. -/
def ended : Option Err → Result Unit
  | none => .ok ()
  | some e => .error e

/-- `min(deadline, until)`, when there is an `until`. -/
def earlier (deadline : PyFloat) : Option PyFloat → PyFloat
  | none => deadline
  | some until_ => if PyFloat.lt until_ deadline then until_ else deadline

/-- `_read_verbatim(resp, url, cap, until)`, `started` being `time.monotonic()` before the loop. -/
def readVerbatim (timeoutS : PyFloat) (resp : Response) (url : Str) (cap : Int)
    (until_ : Option PyFloat) (started : PyFloat) : Result Bytes := do
  let decoder ← decoderFor I Z resp.contentEncoding url
  raiseIf ((declaredLength resp.contentLength).any fun n => cap < (n : Int))
    ⟨.httpError, "response exceeds % bytes", [.int cap, .str url]⟩
  let deadline := earlier (PyFloat.add started timeoutS) until_
  let (decoder, body) ← readChunks Z url cap deadline (usedDecoder resp decoder) 0 [] resp.chunks
  ended resp.failure
  raiseIf (decoder.any fun d => !Z.eof d)
    ⟨.malformedRegistryResponse, "response body is a truncated compressed stream: %", [.str url]⟩
  return body

end Read

end OpenVC.Ebsi.Http
