/-! # Consumed records and their dead letters

A consumer sees each record of a partition with its coordinates and either the decoded event or the
reason why it does not decode. A record that is given up on is published again as it was, to the
dead-letter topic of its origin topic. -/

namespace CorePlatform.Transport

abbrev Bytes := List UInt8

/-- The broker client's own errors are known by their text. -/
inductive KafkaTransportError where
  | producer (e : String)
  | consumer (e : String)
  | config (message : String)
  | emptyPayload

inductive CodecError where
  | json (e : String)

inductive TransportError where
  | kafka (e : KafkaTransportError)
  | codec (e : CodecError)

def KafkaTransportError.display : KafkaTransportError → String
  | producer e => "Kafka producer error: " ++ e
  | consumer e => "Kafka consumer error: " ++ e
  | config message => "Kafka client configuration error: " ++ message
  | emptyPayload => "message payload is empty"

def CodecError.display : CodecError → String
  | json e => "JSON serialization error: " ++ e

def TransportError.display : TransportError → String
  | kafka e => "Kafka error: " ++ e.display
  | codec e => "codec error: " ++ e.display

structure TopicPartition where
  topic : String
  partition : Int
  deriving DecidableEq

/-- What the broker keeps at one offset. -/
structure Record where
  key : Option Bytes
  payload : Option Bytes

structure ConsumedMessage (T : Type) where
  topic : String
  partition : Int
  offset : Nat
  key : String
  rawPayload : Bytes
  payload : Except TransportError T

/-- Text of the bytes, or the empty text when there are none or they are no UTF-8. -/
def utf8OrEmpty (bytes : Option Bytes) : String :=
  (bytes.bind fun bytes => String.fromUTF8? ⟨bytes.toArray⟩).getD ""

/-- An item of `KafkaConsumerHandle::stream`; `decode` is the JSON reader of the event type. -/
def ConsumedMessage.ofRecord {T : Type} (decode : Bytes → Except String T) (source : TopicPartition)
    (offset : Nat) (record : Record) : ConsumedMessage T where
  topic := source.topic
  partition := source.partition
  offset
  key := utf8OrEmpty record.key
  rawPayload := record.payload.getD []
  payload :=
    match record.payload with
    | none => .error (.kafka .emptyPayload)
    | some bytes => (decode bytes).mapError fun e => .codec (.json e)

def ConsumedMessage.source {T : Type} (msg : ConsumedMessage T) : TopicPartition :=
  ⟨msg.topic, msg.partition⟩

def dlqSuffix : String := ".dlq"

def maxDlqErrorLen : Nat := 1024

structure ProducerRecord where
  topic : String
  key : String
  payload : Bytes
  headers : List (String × String)

/-- What `dead_letter` publishes, with the clock at `nowMs`. -/
def deadLetter {T : Type} (msg : ConsumedMessage T) (reasonKind reason : String) (attempts : Nat)
    (nowMs : Int) : ProducerRecord where
  topic := msg.topic ++ dlqSuffix
  key := msg.key
  payload := msg.rawPayload
  headers := [
    ("x-dlq-origin-topic", msg.topic),
    ("x-dlq-partition", toString msg.partition),
    ("x-dlq-offset", toString msg.offset),
    ("x-dlq-reason", reasonKind),
    ("x-dlq-error", String.ofList (reason.toList.take maxDlqErrorLen)),
    ("x-dlq-attempts", toString attempts),
    ("x-dlq-failed-at-ms", toString nowMs)]

/-- The producer record carries this record away: it goes to the dead-letter topic with the record's
bytes and says where they came from. -/
structure Parks (source : TopicPartition) (offset : Nat) (record : Record) (letter : ProducerRecord) : Prop where
  topic : letter.topic = source.topic ++ dlqSuffix
  key : letter.key = utf8OrEmpty record.key
  payload : letter.payload = record.payload.getD []
  originTopic : ("x-dlq-origin-topic", source.topic) ∈ letter.headers
  originPartition : ("x-dlq-partition", toString source.partition) ∈ letter.headers
  originOffset : ("x-dlq-offset", toString offset) ∈ letter.headers

theorem deadLetter_parks {T : Type} (hd : Bytes → Except String T) :
    Parks source offset record (deadLetter (.ofRecord hd source offset record) reasonKind reason attempts nowMs) := by
  constructor <;> simp [deadLetter, ConsumedMessage.ofRecord]

end CorePlatform.Transport
