import TaggedStack.Text.CodePoint

/-!
# Output sinks

What a program prints goes to a sink, one emission at a time: a text, or a single code point.
A *buffer* keeps the emissions apart and unchanged. A *stream* joins them, and replaces a
surrogate printed as a single code point, since it cannot be encoded.

* `Sink.text_emit_buffer`, `Sink.text_emit_stream`: what one emission adds to the text.
-/

namespace TaggedStack

/-- One piece of output. -/
inductive Emission
  | text (t : Text)
  | point (c : CodePoint)
  deriving DecidableEq, Repr

/-- The code points of a piece of output. -/
def Emission.toText : Emission → Text
  | text t => t
  | point c => [c]

/-- The code points a stream shows for a piece of output. -/
def Emission.scrubbed : Emission → Text
  | text t => t
  | point c => [c.scrub]

/-- Where output goes. -/
inductive Sink
  | buffer (chunks : Array Text)
  | stream (written : Array CodePoint)
  deriving Repr

namespace Sink

/-- An empty buffer. -/
def emptyBuffer : Sink := buffer #[]

/-- An empty stream. -/
def emptyStream : Sink := stream #[]

/-- The sink after one more piece of output. -/
def emit : Sink → Emission → Sink
  | buffer chunks, e => buffer (chunks.push e.toText)
  | stream written, e => stream (written ++ e.scrubbed)

/-- The sink after a text. -/
def writeText (s : Sink) (t : Text) : Sink := s.emit (.text t)

/-- The sink after the code point of a given number. -/
def writePoint (s : Sink) (value : Int) : Except CodePointError Sink :=
  (fun c ↦ s.emit (.point c)) <$> CodePoint.ofInt value

/-- All that was written. -/
def text : Sink → Text
  | buffer chunks => chunks.toList.flatten
  | stream written => written.toList

/-- All that was written, in the pieces the sink keeps. -/
def pieces : Sink → List Text
  | buffer chunks => chunks.toList
  | stream written => [written.toList]

theorem text_emit_buffer (chunks : Array Text) (e : Emission) :
    ((buffer chunks).emit e).text = (buffer chunks).text ++ e.toText := by
  simp [emit, text]

theorem text_emit_stream (written : Array CodePoint) (e : Emission) :
    ((stream written).emit e).text = (stream written).text ++ e.scrubbed := by
  simp [emit, text]

end Sink

end TaggedStack
