import ChronoBook.Feed.BinaryProtocol
import ChronoBook.Library.Bytes

/-! The feed parser. A message is copied to and from its 40 bytes, so a buffer is a
row of whole messages and a last part that stays unread. A reader that puts this part
in front of the next bytes sees the same messages wherever its input was cut. -/

namespace ChronoBook
open Library

/-- The bytes of a message in memory; the fields leave no gap. -/
def FeedMessage.codec : Codec FeedMessage :=
  (Codec.uint64.pair (Codec.uint64.pair (Codec.uint64.pair (Codec.uint32.pair (Codec.uint32.pair
    (Codec.byte.pair (Codec.byte.pair (Codec.byte.pair (Codec.array 5))))))))).record
    (fun m => (m.sequence, m.orderId, m.symbolPacked, m.price, m.qty, m.msgType, m.side, m.orderType, m.pad))
    (fun fields => ⟨fields.1, fields.2.1, fields.2.2.1, fields.2.2.2.1, fields.2.2.2.2.1, fields.2.2.2.2.2.1,
      fields.2.2.2.2.2.2.1, fields.2.2.2.2.2.2.2.1, fields.2.2.2.2.2.2.2.2⟩)
    (fun _ => rfl) (fun _ => rfl)

def kFeedMessageSize : Nat := 40

theorem FeedMessage.codec_width : FeedMessage.codec.width = kFeedMessageSize := rfl

def encodeMessage (m : FeedMessage) (dst : List UInt8) (offset : Nat) : List UInt8 :=
  patch dst offset (FeedMessage.codec.encode m)

def decodeMessage (src : List UInt8) : FeedMessage := FeedMessage.codec.decode (src.take kFeedMessageSize)

namespace FeedParser

/-- The messages of a buffer, and `bytesConsumed`. -/
def parseBuffer (data : List UInt8) : List FeedMessage × Nat :=
  let n := data.length / kFeedMessageSize
  ((List.range n).map (fun i => decodeMessage (data.drop (i * kFeedMessageSize))), n * kFeedMessageSize)

def encodeAll (msgs : List FeedMessage) : List UInt8 :=
  msgs.zipIdx.foldl (fun buf entry => encodeMessage entry.1 buf (entry.2 * kFeedMessageSize))
    (List.replicate (msgs.length * kFeedMessageSize) 0)

/-- The file after the call, and what the call returns; nothing waits for the stream to be closed. -/
def writeFile (msgs : List FeedMessage) (outcome : WriteOutcome) (file : Option (List UInt8)) :
    Option (List UInt8) × Bool :=
  match outcome with
  | .openFails => (file, false)
  | .done => (some (encodeAll msgs), true)
  | .short bytes noticed => (some ((encodeAll msgs).take bytes), !noticed)

/-- No file is one that cannot be opened or has no size; `intact` is whether a read of it succeeds. -/
def readFile (file : Option (List UInt8)) (intact : Bool) : Option (List FeedMessage) :=
  match file with
  | none => none
  | some bytes =>
      if bytes.length % kFeedMessageSize ≠ 0 then none
      else if 0 < bytes.length ∧ intact = false then none
      else some (parseBuffer bytes).1

/-- A reader of chunks: what a call of the parser leaves is put in front of the next chunk. -/
def readChunks (tail : List UInt8) : List (List UInt8) → List FeedMessage × List UInt8
  | [] => ([], tail)
  | chunk :: chunks =>
      let parsed := parseBuffer (tail ++ chunk)
      let later := readChunks ((tail ++ chunk).drop parsed.2) chunks
      (parsed.1 ++ later.1, later.2)

theorem parseBuffer_eq (data : List UInt8) : (parseBuffer data).1 =
    FeedMessage.codec.decodeAll (data.length / 40) data := by
  rw [Codec.decodeAll_eq_map]
  rfl

theorem parseBuffer_consumed (data : List UInt8) : (parseBuffer data).2 = 40 * (data.length / 40) := Nat.mul_comm _ _

theorem codec_length (m : FeedMessage) : (FeedMessage.codec.encode m).length = 40 := FeedMessage.codec.encode_length m

/-- The loop over the messages, from one of them on: those before it are in place, behind them the buffer is still zero. -/
theorem encodeAll_from (before msgs : List FeedMessage) :
    (msgs.zipIdx before.length).foldl (fun buf entry => encodeMessage entry.1 buf (entry.2 * kFeedMessageSize))
      (FeedMessage.codec.encodeAll before ++ List.replicate (msgs.length * kFeedMessageSize) 0) =
      FeedMessage.codec.encodeAll (before ++ msgs) := by
  induction msgs generalizing before with
  | nil => rw [List.length_nil, Nat.zero_mul, List.replicate_zero, List.append_nil, List.append_nil]; rfl
  | cons m rest ih =>
    have starts : (FeedMessage.codec.encodeAll before).length = before.length * kFeedMessageSize := by
      rw [Codec.encodeAll_length, FeedMessage.codec_width, Nat.mul_comm]
    have written : encodeMessage m (FeedMessage.codec.encodeAll before ++
        List.replicate ((m :: rest).length * kFeedMessageSize) 0) (before.length * kFeedMessageSize) =
        FeedMessage.codec.encodeAll (before ++ [m]) ++ List.replicate (rest.length * kFeedMessageSize) 0 := by
      rw [List.length_cons, Nat.succ_mul, Nat.add_comm, List.replicate_add, encodeMessage,
        patch_middle starts (by rw [List.length_replicate, codec_length]; rfl), Codec.encodeAll_append,
        Codec.encodeAll_singleton, List.append_assoc]
    have later := ih (before ++ [m])
    rw [List.length_append, List.length_singleton, List.append_assoc] at later
    rw [List.zipIdx_cons, List.foldl_cons, written]
    exact later

theorem encodeAll_eq (msgs : List FeedMessage) : encodeAll msgs = FeedMessage.codec.encodeAll msgs :=
  encodeAll_from [] msgs

theorem encodeAll_length (msgs : List FeedMessage) : (encodeAll msgs).length = 40 * msgs.length := by
  rw [encodeAll_eq, Codec.encodeAll_length]
  rfl

/-- A buffer is the bytes of its messages and less than a message behind them. -/
theorem encodeAll_parseBuffer (data : List UInt8) :
    encodeAll (parseBuffer data).1 ++ data.drop (parseBuffer data).2 = data := by
  rw [encodeAll_eq, parseBuffer_eq, parseBuffer_consumed]
  exact (FeedMessage.codec.encodeAll_decodeAll _ data (Nat.mul_div_le data.length 40)).symm

theorem parseBuffer_left (data : List UInt8) : (data.drop (parseBuffer data).2).length < 40 := by
  rw [List.length_drop, parseBuffer_consumed]
  omega

/-- There is one way to see a buffer like that. -/
theorem parseBuffer_encoded (msgs : List FeedMessage) {rest : List UInt8} (few : rest.length < 40) :
    (parseBuffer (encodeAll msgs ++ rest)).1 = msgs ∧
      (encodeAll msgs ++ rest).drop (parseBuffer (encodeAll msgs ++ rest)).2 = rest := by
  have count : (encodeAll msgs ++ rest).length / 40 = msgs.length := by
    rw [List.length_append, encodeAll_length]
    omega
  rw [parseBuffer_eq, parseBuffer_consumed, count]
  constructor
  · rw [encodeAll_eq, Codec.decodeAll_encodeAll]
  · exact List.drop_left' (encodeAll_length msgs)

theorem encodeAll_append (first second : List FeedMessage) :
    encodeAll (first ++ second) = encodeAll first ++ encodeAll second := by
  rw [encodeAll_eq, encodeAll_eq, encodeAll_eq, Codec.encodeAll_append]

/-- What the reader has decoded and what it holds are the bytes it was given. -/
theorem readChunks_bytes (tail : List UInt8) (chunks : List (List UInt8)) :
    encodeAll (readChunks tail chunks).1 ++ (readChunks tail chunks).2 = tail ++ chunks.flatten := by
  induction chunks generalizing tail with
  | nil => rw [readChunks, List.flatten_nil, List.append_nil]; rfl
  | cons chunk chunks ih =>
    rw [readChunks, List.flatten_cons]
    dsimp only
    rw [encodeAll_append, List.append_assoc, ih, ← List.append_assoc, encodeAll_parseBuffer, List.append_assoc]

theorem readChunks_left {tail : List UInt8} (few : tail.length < 40) (chunks : List (List UInt8)) :
    (readChunks tail chunks).2.length < 40 := by
  induction chunks generalizing tail with
  | nil => exact few
  | cons chunk chunks ih => exact ih (parseBuffer_left (tail ++ chunk))

theorem none_left : ([] : List UInt8).length < 40 := Nat.zero_lt_succ 39

theorem readChunks_eq (chunks : List (List UInt8)) : readChunks [] chunks =
    ((parseBuffer chunks.flatten).1, chunks.flatten.drop (parseBuffer chunks.flatten).2) := by
  have few : (readChunks [] chunks).2.length < 40 := readChunks_left none_left chunks
  have bytes := readChunks_bytes [] chunks
  rw [List.nil_append] at bytes
  obtain ⟨messages, left⟩ := parseBuffer_encoded (readChunks [] chunks).1 few
  rw [bytes] at messages left
  rw [messages, left]

theorem readFile_whole {bytes : List UInt8} (whole : bytes.length % 40 = 0) :
    readFile (some bytes) true = some (parseBuffer bytes).1 := by
  unfold readFile kFeedMessageSize
  dsimp only
  rw [if_neg (not_not_intro whole), if_neg (fun failed => Bool.noConfusion failed.2)]

/-- Messages of any content are decoded as they were encoded, however the bytes are cut. Any bytes are decoded the same
however they are cut, and encoding gives back those that were consumed. A file is read as it was written; one that is
not a number of whole messages is not read. -/
theorem stream_decoding (msgs : List FeedMessage) (bytes : List UInt8) (chunks : List (List UInt8))
    (cut : chunks.flatten = bytes) :
    (bytes = encodeAll msgs → readChunks [] chunks = (msgs, [])) ∧
    readChunks [] chunks = readChunks [] [bytes] ∧
    encodeAll (readChunks [] chunks).1 ++ (readChunks [] chunks).2 = bytes ∧
    (readChunks [] chunks).2.length < kFeedMessageSize ∧
    (∀ file, (writeFile msgs .done file).2 = true ∧
      readFile (writeFile msgs .done file).1 true = some msgs) ∧
    (∀ intact, bytes.length % kFeedMessageSize ≠ 0 → readFile (some bytes) intact = none) := by
  have encoded := parseBuffer_encoded msgs none_left
  rw [List.append_nil] at encoded
  refine ⟨?_, ?_, ?_, ?_, ?_, ?_⟩
  · intro same
    rw [readChunks_eq, cut, same, encoded.1, encoded.2]
  · rw [readChunks_eq, readChunks_eq, cut, List.flatten_cons, List.flatten_nil, List.append_nil]
  · rw [readChunks_bytes, cut, List.nil_append]
  · exact readChunks_left none_left chunks
  · intro file
    refine ⟨rfl, ?_⟩
    have whole : (encodeAll msgs).length % 40 = 0 := by
      rw [encodeAll_length]
      omega
    change readFile (some (encodeAll msgs)) true = some msgs
    rw [readFile_whole whole, encoded.1]
  · intro intact odd
    exact if_pos odd

/-- Two messages with bytes outside of the enumerations, cut inside of the first frame and with empty chunks. -/
theorem stream_decoding_cut :
    readChunks [] [(encodeAll [{ msgType := 9, side := 7, orderId := 5 }, { pad := Vector.replicate 5 3 }]).take 33, [],
      (encodeAll [{ msgType := 9, side := 7, orderId := 5 }, { pad := Vector.replicate 5 3 }]).drop 33, []] =
      ([{ msgType := 9, side := 7, orderId := 5 }, { pad := Vector.replicate 5 3 }], []) := by
  apply (stream_decoding [{ msgType := 9, side := 7, orderId := 5 }, { pad := Vector.replicate 5 3 }] _ _ rfl).1
  rw [List.flatten_cons, List.flatten_cons, List.flatten_cons, List.flatten_cons, List.flatten_nil, List.append_nil,
    List.nil_append, List.append_nil, List.take_append_drop]

end FeedParser

end ChronoBook
