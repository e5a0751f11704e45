import Cross233.Control.Handshake
import Cross233.Protocol.Serde

namespace Cross233.Control

open Protocol

structure SerdeJson where
  print : Json → String
  parse : String → Option Json

namespace SerdeJson

variable (json : SerdeJson) (standard : Base64)

def codec : Codec where
  toString msg := json.print ((Message.record standard).format.write msg)
  fromStr text := (json.parse text).bind (Message.record standard).format.read

-- What is relied on at one message: the text of its value parses back, is a braced object in
-- which control characters are escaped, and Base64 decodes what it encoded.
structure Documented (msg : Message) : Prop where
  parses : json.parse ((json.codec standard).toString msg) =
    some ((Message.record standard).format.write msg)
  escapes : newline ∉ Text.utf8 ((json.codec standard).toString msg)
  object : ∃ body, (json.codec standard).toString msg = "\x7b" ++ body ++ "\x7d"
  decodes : ∀ bytes ∈ msg.data, standard.decode (standard.encode bytes) = some bytes

variable {json standard}

theorem Documented.carries {msg : Message} (h : json.Documented standard msg) :
    (json.codec standard).Carries msg where
  noNewline := h.escapes
  object := h.object
  roundTrip := by
    have hparse : (json.codec standard).fromStr ((json.codec standard).toString msg) =
        (Message.record standard).format.read ((Message.record standard).format.write msg) :=
      congrArg (fun j => j.bind (Message.record standard).format.read) h.parses
    rw [hparse]
    exact Message.format_reads h.decodes

end SerdeJson

def Codec.lines (codec : Codec) (msgs : List Message) : List UInt8 := msgs.flatMap codec.line

-- Every line ends in a newline, so nothing follows the last one.
def Codec.readLines (codec : Codec) (bytes : List UInt8) : Except ReadError (List Message) :=
  (bytes.splitOn newline).dropLast.mapM (fun line => decode codec (Text.lossyText line))

theorem Codec.splitOn_lines {codec : Codec} {msgs : List Message}
    (h : ∀ msg ∈ msgs, codec.Carries msg) :
    (codec.lines msgs).splitOn newline = msgs.map codec.body ++ [[]] := by
  have hframes : codec.lines msgs = Lines.frames newline (msgs.map codec.body) := by
    rw [Codec.lines, Lines.frames, List.map_map, List.flatMap_def]
    rfl
  rw [hframes]
  refine Lines.splitOn_frames (fun body hbody => ?_)
  obtain ⟨msg, hmsg, rfl⟩ := List.mem_map.mp hbody
  exact (h msg hmsg).noNewline

theorem Codec.readLines_lines {codec : Codec} {msgs : List Message}
    (h : ∀ msg ∈ msgs, codec.Carries msg) : codec.readLines (codec.lines msgs) = .ok msgs := by
  rw [Codec.readLines, Codec.splitOn_lines h, List.dropLast_concat]
  exact List.mapM_map_pure (fun msg hmsg => decode_lossyText (h msg hmsg))

theorem messages_survive_wire (json : SerdeJson) (standard : Base64) (msgs : List Message)
    (h : ∀ msg ∈ msgs, json.Documented standard msg) :
    (∀ msg ∈ msgs, (json.codec standard).fromStr ((json.codec standard).toString msg) = some msg) ∧
      (json.codec standard).readLines ((json.codec standard).lines msgs) = .ok msgs :=
  ⟨fun msg hmsg => (h msg hmsg).carries.roundTrip,
    Codec.readLines_lines (fun msg hmsg => (h msg hmsg).carries)⟩

def noteService : Service where
  name := "dns"
  ty := some "udp"
  remotePort := 5353
  annotations := (∅ : HashMap String String).insert "note" "a\nb"

def noteDatagram : Message := .newUdp 5353 "10.0.0.1:9" [0, 255] noteService

def noteBase64 : Base64 where
  encode bytes := if bytes = [0, 255] then "AP8=" else ""
  decode text := if text = "AP8=" then some [0, 255] else none

def noteBody : String :=
  "\"type\":\"udp\",\"address\":\"10.0.0.1:9\",\"remotePort\":5353," ++
    "\"service\":\x7b\"name\":\"dns\",\"type\":\"udp\",\"localAddr\":\"\"," ++
    "\"remotePort\":5353,\"annotations\":\x7b\"note\":\"a\\nb\"\x7d\x7d,\"data\":\"AP8=\""

def noteText : String := "\x7b" ++ noteBody ++ "\x7d"

def noteValue : Json := .obj
  [("type", .str "udp"), ("address", .str "10.0.0.1:9"), ("remotePort", .num 5353),
    ("service", .obj [("name", .str "dns"), ("type", .str "udp"), ("localAddr", .str ""),
      ("remotePort", .num 5353), ("annotations", .obj [("note", .str "a\nb")])]),
    ("data", .str "AP8=")]

def noteJson : SerdeJson where
  print
    | .obj [("type", .str "ping")] => "\x7b\"type\":\"ping\"\x7d"
    | .obj (("type", .str "udp") :: _) => noteText
    | _ => "\x7b\x7d"
  parse text :=
    if text = noteText then some noteValue
    else if text = "\x7b\"type\":\"ping\"\x7d" then some (.obj [("type", .str "ping")])
    else none

theorem note_documented : noteJson.Documented noteBase64 noteDatagram := by
  have hwrite : (Message.record noteBase64).format.write noteDatagram = noteValue := rfl
  have htext : (noteJson.codec noteBase64).toString noteDatagram = noteText := rfl
  refine ⟨?_, ?_, ?_, ?_⟩
  · rw [htext, hwrite]
    simp only [noteJson, if_true]
  · rw [htext]
    decide +kernel
  · exact ⟨noteBody, htext⟩
  · intro bytes hbytes
    cases hbytes
    rfl

theorem ping_documented : noteJson.Documented noteBase64 .newPing where
  parses := rfl
  escapes := by decide +kernel
  object := ⟨"\"type\":\"ping\"", by decide +kernel⟩
  decodes := nofun

theorem datagram_and_ping_survive :
    (noteJson.codec noteBase64).lines [noteDatagram, .newPing] =
        Text.utf8 (noteText ++ "\n" ++ "\x7b\"type\":\"ping\"\x7d" ++ "\n") ∧
      (noteJson.codec noteBase64).fromStr noteText = some noteDatagram ∧
      (noteJson.codec noteBase64).readLines
        ((noteJson.codec noteBase64).lines [noteDatagram, .newPing]) =
          .ok [noteDatagram, .newPing] := by
  have hdoc : ∀ msg ∈ [noteDatagram, .newPing], noteJson.Documented noteBase64 msg := by
    intro msg hmsg
    rcases List.mem_pair.mp hmsg with rfl | rfl
    · exact note_documented
    · exact ping_documented
  obtain ⟨hone, hall⟩ := messages_survive_wire noteJson noteBase64 _ hdoc
  exact ⟨by decide +kernel, hone noteDatagram List.mem_cons_self, hall⟩

end Cross233.Control
