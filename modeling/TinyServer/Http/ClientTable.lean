/-
The machine of `httpclient_parser_execute` (httpclient_parser.rl.cpp), in
the form of `RequestTable.lean`: the jumps of the generated code, with
the actions at their labels. The machine reads the header of a response
or the size line of a chunk.

There are four final states, and `httpclient_parser_is_finished` accepts
only the first.
-/
import TinyServer.Http.RequestTable

namespace TinyServer.Http

open Lib

/-- The actions of httpclient_parser.rl; `start_value` is `mark`. -/
inductive ClientAction
  | mark
  | startField
  | writeField
  | writeContentLen
  | writeConnectionClose
  | writeValue
  | reasonPhrase
  | statusCode
  | httpVersion
  | chunkSize
  | transChunked
  | done
  deriving DecidableEq, Repr

namespace ClientTable

/-- `httpclient_parser_start`. -/
def start : Nat := 1

/-- `httpclient_parser_first_final`. -/
def firstFinal : Nat := 120

/-- What stands at the labels `trN`: the actions and the state after
them. -/
def actions : List (Nat × List ClientAction × Nat) :=
  [ (0, [.mark], 2),
    (2, [.mark], 8),
    (3, [.chunkSize, .done], 120),
    (4, [.chunkSize], 3),
    (6, [.chunkSize], 4),
    (7, [.done], 120),
    (8, [.startField], 5),
    (9, [.writeField, .mark, .writeValue, .done], 120),
    (10, [.writeField, .mark, .writeValue], 3),
    (12, [.writeField, .mark, .writeValue], 4),
    (13, [.writeField, .mark], 6),
    (14, [.mark], 7),
    (15, [.writeValue, .done], 120),
    (16, [.writeValue], 3),
    (18, [.writeValue], 4),
    (26, [.httpVersion], 16),
    (27, [.mark], 17),
    (28, [.statusCode], 18),
    (30, [.mark], 19),
    (32, [.reasonPhrase], 20),
    (33, [.reasonPhrase], 24),
    (35, [.startField], 21),
    (36, [.startField], 25),
    (37, [.startField], 44),
    (39, [.writeField], 22),
    (40, [.mark], 23),
    (41, [.mark], 22),
    (42, [.mark, .writeValue], 20),
    (43, [.mark, .writeValue], 24),
    (45, [.writeValue], 20),
    (46, [.writeValue], 24),
    (58, [.writeField], 35),
    (59, [.mark], 35),
    (60, [.mark, .writeValue], 36),
    (61, [.mark, .writeValue], 95),
    (62, [.mark], 96),
    (64, [.done], 122),
    (66, [.startField], 90),
    (74, [.writeConnectionClose, .done], 120),
    (75, [.writeConnectionClose], 3),
    (76, [.writeConnectionClose, .startField], 21),
    (77, [.writeConnectionClose, .startField], 25),
    (78, [.writeConnectionClose, .startField], 44),
    (95, [.writeField], 61),
    (96, [.mark], 61),
    (97, [.mark, .writeValue], 62),
    (98, [.mark, .writeValue], 80),
    (99, [.mark], 81),
    (101, [.done], 121),
    (103, [.mark, .startField], 73),
    (104, [.mark], 64),
    (111, [.writeValue, .transChunked], 20),
    (112, [.writeValue], 71),
    (113, [.transChunked], 20),
    (136, [.writeValue], 43),
    (137, [.writeValue], 88),
    (148, [.writeField], 112),
    (149, [.mark], 112),
    (150, [.mark, .writeValue], 113),
    (151, [.mark, .writeValue], 118),
    (152, [.mark], 119),
    (154, [.done], 123),
    (156, [.mark, .startField], 117),
    (157, [.mark], 115),
    (158, [.writeContentLen, .writeValue], 20),
    (159, [.writeContentLen, .writeValue], 24)]

/-- The rows of states 0 to 123. -/
def rows : List (List (Range Label)) :=
  [
    -- st0
    [],
    [⟨48, 57, .tr 0⟩, ⟨65, 70, .tr 0⟩, ⟨72, 72, .tr 2⟩, ⟨97, 102, .tr 0⟩],
    [⟨10, 10, .tr 3⟩, ⟨13, 13, .tr 4⟩, ⟨48, 57, .st 2⟩, ⟨59, 59, .tr 6⟩,
     ⟨65, 70, .st 2⟩, ⟨97, 102, .st 2⟩],
    [⟨10, 10, .tr 7⟩],
    [⟨33, 33, .tr 8⟩, ⟨35, 39, .tr 8⟩, ⟨42, 43, .tr 8⟩, ⟨45, 46, .tr 8⟩,
     ⟨48, 57, .tr 8⟩, ⟨65, 90, .tr 8⟩, ⟨94, 122, .tr 8⟩, ⟨124, 124, .tr 8⟩,
     ⟨126, 126, .tr 8⟩],
    [⟨10, 10, .tr 9⟩, ⟨13, 13, .tr 10⟩, ⟨33, 33, .st 5⟩, ⟨35, 39, .st 5⟩,
     ⟨42, 43, .st 5⟩, ⟨45, 46, .st 5⟩, ⟨48, 57, .st 5⟩, ⟨59, 59, .tr 12⟩,
     ⟨61, 61, .tr 13⟩, ⟨65, 90, .st 5⟩, ⟨94, 122, .st 5⟩,
     ⟨124, 124, .st 5⟩, ⟨126, 126, .st 5⟩],
    [⟨33, 33, .tr 14⟩, ⟨35, 39, .tr 14⟩, ⟨42, 43, .tr 14⟩,
     ⟨45, 46, .tr 14⟩, ⟨48, 57, .tr 14⟩, ⟨65, 90, .tr 14⟩,
     ⟨94, 122, .tr 14⟩, ⟨124, 124, .tr 14⟩, ⟨126, 126, .tr 14⟩],
    [⟨10, 10, .tr 15⟩, ⟨13, 13, .tr 16⟩, ⟨33, 33, .st 7⟩, ⟨35, 39, .st 7⟩,
     ⟨42, 43, .st 7⟩, ⟨45, 46, .st 7⟩, ⟨48, 57, .st 7⟩, ⟨59, 59, .tr 18⟩,
     ⟨65, 90, .st 7⟩, ⟨94, 122, .st 7⟩, ⟨124, 124, .st 7⟩,
     ⟨126, 126, .st 7⟩],
    [⟨84, 84, .st 9⟩],
    [⟨84, 84, .st 10⟩],
    -- st10
    [⟨80, 80, .st 11⟩],
    [⟨47, 47, .st 12⟩],
    [⟨48, 57, .st 13⟩],
    [⟨46, 46, .st 14⟩, ⟨48, 57, .st 13⟩],
    [⟨48, 57, .st 15⟩],
    [⟨32, 32, .tr 26⟩, ⟨48, 57, .st 15⟩],
    [⟨48, 57, .tr 27⟩],
    [⟨32, 32, .tr 28⟩, ⟨48, 57, .st 17⟩],
    [⟨0, 9, .tr 30⟩, ⟨11, 255, .tr 30⟩],
    [⟨0, 9, .st 19⟩, ⟨10, 10, .tr 32⟩, ⟨11, 12, .st 19⟩, ⟨13, 13, .tr 33⟩,
     ⟨14, 255, .st 19⟩],
    -- st20
    [⟨10, 10, .tr 7⟩, ⟨13, 13, .st 3⟩, ⟨33, 33, .tr 35⟩, ⟨35, 39, .tr 35⟩,
     ⟨42, 43, .tr 35⟩, ⟨45, 46, .tr 35⟩, ⟨48, 57, .tr 35⟩,
     ⟨65, 66, .tr 35⟩, ⟨67, 67, .tr 36⟩, ⟨68, 83, .tr 35⟩,
     ⟨84, 84, .tr 37⟩, ⟨85, 90, .tr 35⟩, ⟨94, 98, .tr 35⟩,
     ⟨99, 99, .tr 36⟩, ⟨100, 115, .tr 35⟩, ⟨116, 116, .tr 37⟩,
     ⟨117, 122, .tr 35⟩, ⟨124, 124, .tr 35⟩, ⟨126, 126, .tr 35⟩],
    [⟨33, 33, .st 21⟩, ⟨35, 39, .st 21⟩, ⟨42, 43, .st 21⟩,
     ⟨45, 46, .st 21⟩, ⟨48, 57, .st 21⟩, ⟨58, 58, .tr 39⟩,
     ⟨65, 90, .st 21⟩, ⟨94, 122, .st 21⟩, ⟨124, 124, .st 21⟩,
     ⟨126, 126, .st 21⟩],
    [⟨0, 8, .tr 40⟩, ⟨9, 9, .tr 41⟩, ⟨10, 10, .tr 42⟩, ⟨11, 12, .tr 41⟩,
     ⟨13, 13, .tr 43⟩, ⟨14, 31, .tr 40⟩, ⟨32, 32, .tr 41⟩,
     ⟨33, 255, .tr 40⟩],
    [⟨0, 9, .st 23⟩, ⟨10, 10, .tr 45⟩, ⟨11, 12, .st 23⟩, ⟨13, 13, .tr 46⟩,
     ⟨14, 255, .st 23⟩],
    [⟨10, 10, .st 20⟩],
    [⟨33, 33, .st 21⟩, ⟨35, 39, .st 21⟩, ⟨42, 43, .st 21⟩,
     ⟨45, 46, .st 21⟩, ⟨48, 57, .st 21⟩, ⟨58, 58, .tr 39⟩,
     ⟨65, 78, .st 21⟩, ⟨79, 79, .st 26⟩, ⟨80, 90, .st 21⟩,
     ⟨94, 110, .st 21⟩, ⟨111, 111, .st 26⟩, ⟨112, 122, .st 21⟩,
     ⟨124, 124, .st 21⟩, ⟨126, 126, .st 21⟩],
    [⟨33, 33, .st 21⟩, ⟨35, 39, .st 21⟩, ⟨42, 43, .st 21⟩,
     ⟨45, 46, .st 21⟩, ⟨48, 57, .st 21⟩, ⟨58, 58, .tr 39⟩,
     ⟨65, 77, .st 21⟩, ⟨78, 78, .st 27⟩, ⟨79, 90, .st 21⟩,
     ⟨94, 109, .st 21⟩, ⟨110, 110, .st 27⟩, ⟨111, 122, .st 21⟩,
     ⟨124, 124, .st 21⟩, ⟨126, 126, .st 21⟩],
    [⟨33, 33, .st 21⟩, ⟨35, 39, .st 21⟩, ⟨42, 43, .st 21⟩,
     ⟨45, 46, .st 21⟩, ⟨48, 57, .st 21⟩, ⟨58, 58, .tr 39⟩,
     ⟨65, 77, .st 21⟩, ⟨78, 78, .st 28⟩, ⟨79, 83, .st 21⟩,
     ⟨84, 84, .st 101⟩, ⟨85, 90, .st 21⟩, ⟨94, 109, .st 21⟩,
     ⟨110, 110, .st 28⟩, ⟨111, 115, .st 21⟩, ⟨116, 116, .st 101⟩,
     ⟨117, 122, .st 21⟩, ⟨124, 124, .st 21⟩, ⟨126, 126, .st 21⟩],
    [⟨33, 33, .st 21⟩, ⟨35, 39, .st 21⟩, ⟨42, 43, .st 21⟩,
     ⟨45, 46, .st 21⟩, ⟨48, 57, .st 21⟩, ⟨58, 58, .tr 39⟩,
     ⟨65, 68, .st 21⟩, ⟨69, 69, .st 29⟩, ⟨70, 90, .st 21⟩,
     ⟨94, 100, .st 21⟩, ⟨101, 101, .st 29⟩, ⟨102, 122, .st 21⟩,
     ⟨124, 124, .st 21⟩, ⟨126, 126, .st 21⟩],
    [⟨33, 33, .st 21⟩, ⟨35, 39, .st 21⟩, ⟨42, 43, .st 21⟩,
     ⟨45, 46, .st 21⟩, ⟨48, 57, .st 21⟩, ⟨58, 58, .tr 39⟩,
     ⟨65, 66, .st 21⟩, ⟨67, 67, .st 30⟩, ⟨68, 90, .st 21⟩,
     ⟨94, 98, .st 21⟩, ⟨99, 99, .st 30⟩, ⟨100, 122, .st 21⟩,
     ⟨124, 124, .st 21⟩, ⟨126, 126, .st 21⟩],
    -- st30
    [⟨33, 33, .st 21⟩, ⟨35, 39, .st 21⟩, ⟨42, 43, .st 21⟩,
     ⟨45, 46, .st 21⟩, ⟨48, 57, .st 21⟩, ⟨58, 58, .tr 39⟩,
     ⟨65, 83, .st 21⟩, ⟨84, 84, .st 31⟩, ⟨85, 90, .st 21⟩,
     ⟨94, 115, .st 21⟩, ⟨116, 116, .st 31⟩, ⟨117, 122, .st 21⟩,
     ⟨124, 124, .st 21⟩, ⟨126, 126, .st 21⟩],
    [⟨33, 33, .st 21⟩, ⟨35, 39, .st 21⟩, ⟨42, 43, .st 21⟩,
     ⟨45, 46, .st 21⟩, ⟨48, 57, .st 21⟩, ⟨58, 58, .tr 39⟩,
     ⟨65, 72, .st 21⟩, ⟨73, 73, .st 32⟩, ⟨74, 90, .st 21⟩,
     ⟨94, 104, .st 21⟩, ⟨105, 105, .st 32⟩, ⟨106, 122, .st 21⟩,
     ⟨124, 124, .st 21⟩, ⟨126, 126, .st 21⟩],
    [⟨33, 33, .st 21⟩, ⟨35, 39, .st 21⟩, ⟨42, 43, .st 21⟩,
     ⟨45, 46, .st 21⟩, ⟨48, 57, .st 21⟩, ⟨58, 58, .tr 39⟩,
     ⟨65, 78, .st 21⟩, ⟨79, 79, .st 33⟩, ⟨80, 90, .st 21⟩,
     ⟨94, 110, .st 21⟩, ⟨111, 111, .st 33⟩, ⟨112, 122, .st 21⟩,
     ⟨124, 124, .st 21⟩, ⟨126, 126, .st 21⟩],
    [⟨33, 33, .st 21⟩, ⟨35, 39, .st 21⟩, ⟨42, 43, .st 21⟩,
     ⟨45, 46, .st 21⟩, ⟨48, 57, .st 21⟩, ⟨58, 58, .tr 39⟩,
     ⟨65, 77, .st 21⟩, ⟨78, 78, .st 34⟩, ⟨79, 90, .st 21⟩,
     ⟨94, 109, .st 21⟩, ⟨110, 110, .st 34⟩, ⟨111, 122, .st 21⟩,
     ⟨124, 124, .st 21⟩, ⟨126, 126, .st 21⟩],
    [⟨33, 33, .st 21⟩, ⟨35, 39, .st 21⟩, ⟨42, 43, .st 21⟩,
     ⟨45, 46, .st 21⟩, ⟨48, 57, .st 21⟩, ⟨58, 58, .tr 58⟩,
     ⟨65, 90, .st 21⟩, ⟨94, 122, .st 21⟩, ⟨124, 124, .st 21⟩,
     ⟨126, 126, .st 21⟩],
    [⟨0, 8, .tr 40⟩, ⟨9, 9, .tr 59⟩, ⟨10, 10, .tr 60⟩, ⟨11, 12, .tr 59⟩,
     ⟨13, 13, .tr 61⟩, ⟨14, 31, .tr 40⟩, ⟨32, 32, .tr 59⟩,
     ⟨33, 66, .tr 40⟩, ⟨67, 67, .tr 62⟩, ⟨68, 98, .tr 40⟩,
     ⟨99, 99, .tr 62⟩, ⟨100, 255, .tr 40⟩],
    [⟨9, 9, .st 37⟩, ⟨10, 10, .tr 64⟩, ⟨11, 12, .st 37⟩, ⟨13, 13, .st 89⟩,
     ⟨32, 32, .st 37⟩, ⟨33, 33, .tr 35⟩, ⟨35, 39, .tr 35⟩,
     ⟨42, 43, .tr 35⟩, ⟨45, 46, .tr 35⟩, ⟨48, 57, .tr 35⟩,
     ⟨65, 66, .tr 35⟩, ⟨67, 67, .tr 66⟩, ⟨68, 83, .tr 35⟩,
     ⟨84, 84, .tr 37⟩, ⟨85, 90, .tr 35⟩, ⟨94, 98, .tr 35⟩,
     ⟨99, 99, .tr 66⟩, ⟨100, 115, .tr 35⟩, ⟨116, 116, .tr 37⟩,
     ⟨117, 122, .tr 35⟩, ⟨124, 124, .tr 35⟩, ⟨126, 126, .tr 35⟩],
    [⟨9, 13, .st 37⟩, ⟨32, 32, .st 37⟩, ⟨67, 67, .st 38⟩, ⟨99, 99, .st 38⟩],
    [⟨76, 76, .st 39⟩, ⟨108, 108, .st 39⟩],
    [⟨79, 79, .st 40⟩, ⟨111, 111, .st 40⟩],
    -- st40
    [⟨83, 83, .st 41⟩, ⟨115, 115, .st 41⟩],
    [⟨69, 69, .st 42⟩, ⟨101, 101, .st 42⟩],
    [⟨10, 10, .st 43⟩, ⟨13, 13, .st 88⟩],
    [⟨10, 10, .tr 74⟩, ⟨13, 13, .tr 75⟩, ⟨33, 33, .tr 76⟩,
     ⟨35, 39, .tr 76⟩, ⟨42, 43, .tr 76⟩, ⟨45, 46, .tr 76⟩,
     ⟨48, 57, .tr 76⟩, ⟨65, 66, .tr 76⟩, ⟨67, 67, .tr 77⟩,
     ⟨68, 83, .tr 76⟩, ⟨84, 84, .tr 78⟩, ⟨85, 90, .tr 76⟩,
     ⟨94, 98, .tr 76⟩, ⟨99, 99, .tr 77⟩, ⟨100, 115, .tr 76⟩,
     ⟨116, 116, .tr 78⟩, ⟨117, 122, .tr 76⟩, ⟨124, 124, .tr 76⟩,
     ⟨126, 126, .tr 76⟩],
    [⟨33, 33, .st 21⟩, ⟨35, 39, .st 21⟩, ⟨42, 43, .st 21⟩,
     ⟨45, 46, .st 21⟩, ⟨48, 57, .st 21⟩, ⟨58, 58, .tr 39⟩,
     ⟨65, 81, .st 21⟩, ⟨82, 82, .st 45⟩, ⟨83, 90, .st 21⟩,
     ⟨94, 113, .st 21⟩, ⟨114, 114, .st 45⟩, ⟨115, 122, .st 21⟩,
     ⟨124, 124, .st 21⟩, ⟨126, 126, .st 21⟩],
    [⟨33, 33, .st 21⟩, ⟨35, 39, .st 21⟩, ⟨42, 43, .st 21⟩,
     ⟨45, 46, .st 21⟩, ⟨48, 57, .st 21⟩, ⟨58, 58, .tr 39⟩,
     ⟨65, 65, .st 46⟩, ⟨66, 90, .st 21⟩, ⟨94, 96, .st 21⟩,
     ⟨97, 97, .st 46⟩, ⟨98, 122, .st 21⟩, ⟨124, 124, .st 21⟩,
     ⟨126, 126, .st 21⟩],
    [⟨33, 33, .st 21⟩, ⟨35, 39, .st 21⟩, ⟨42, 43, .st 21⟩,
     ⟨45, 46, .st 21⟩, ⟨48, 57, .st 21⟩, ⟨58, 58, .tr 39⟩,
     ⟨65, 77, .st 21⟩, ⟨78, 78, .st 47⟩, ⟨79, 90, .st 21⟩,
     ⟨94, 109, .st 21⟩, ⟨110, 110, .st 47⟩, ⟨111, 122, .st 21⟩,
     ⟨124, 124, .st 21⟩, ⟨126, 126, .st 21⟩],
    [⟨33, 33, .st 21⟩, ⟨35, 39, .st 21⟩, ⟨42, 43, .st 21⟩,
     ⟨45, 46, .st 21⟩, ⟨48, 57, .st 21⟩, ⟨58, 58, .tr 39⟩,
     ⟨65, 82, .st 21⟩, ⟨83, 83, .st 48⟩, ⟨84, 90, .st 21⟩,
     ⟨94, 114, .st 21⟩, ⟨115, 115, .st 48⟩, ⟨116, 122, .st 21⟩,
     ⟨124, 124, .st 21⟩, ⟨126, 126, .st 21⟩],
    [⟨33, 33, .st 21⟩, ⟨35, 39, .st 21⟩, ⟨42, 43, .st 21⟩,
     ⟨45, 46, .st 21⟩, ⟨48, 57, .st 21⟩, ⟨58, 58, .tr 39⟩,
     ⟨65, 69, .st 21⟩, ⟨70, 70, .st 49⟩, ⟨71, 90, .st 21⟩,
     ⟨94, 101, .st 21⟩, ⟨102, 102, .st 49⟩, ⟨103, 122, .st 21⟩,
     ⟨124, 124, .st 21⟩, ⟨126, 126, .st 21⟩],
    [⟨33, 33, .st 21⟩, ⟨35, 39, .st 21⟩, ⟨42, 43, .st 21⟩,
     ⟨45, 46, .st 21⟩, ⟨48, 57, .st 21⟩, ⟨58, 58, .tr 39⟩,
     ⟨65, 68, .st 21⟩, ⟨69, 69, .st 50⟩, ⟨70, 90, .st 21⟩,
     ⟨94, 100, .st 21⟩, ⟨101, 101, .st 50⟩, ⟨102, 122, .st 21⟩,
     ⟨124, 124, .st 21⟩, ⟨126, 126, .st 21⟩],
    -- st50
    [⟨33, 33, .st 21⟩, ⟨35, 39, .st 21⟩, ⟨42, 43, .st 21⟩,
     ⟨45, 46, .st 21⟩, ⟨48, 57, .st 21⟩, ⟨58, 58, .tr 39⟩,
     ⟨65, 81, .st 21⟩, ⟨82, 82, .st 51⟩, ⟨83, 90, .st 21⟩,
     ⟨94, 113, .st 21⟩, ⟨114, 114, .st 51⟩, ⟨115, 122, .st 21⟩,
     ⟨124, 124, .st 21⟩, ⟨126, 126, .st 21⟩],
    [⟨33, 33, .st 21⟩, ⟨35, 39, .st 21⟩, ⟨42, 43, .st 21⟩,
     ⟨45, 45, .st 52⟩, ⟨46, 46, .st 21⟩, ⟨48, 57, .st 21⟩,
     ⟨58, 58, .tr 39⟩, ⟨65, 90, .st 21⟩, ⟨94, 122, .st 21⟩,
     ⟨124, 124, .st 21⟩, ⟨126, 126, .st 21⟩],
    [⟨33, 33, .st 21⟩, ⟨35, 39, .st 21⟩, ⟨42, 43, .st 21⟩,
     ⟨45, 46, .st 21⟩, ⟨48, 57, .st 21⟩, ⟨58, 58, .tr 39⟩,
     ⟨65, 68, .st 21⟩, ⟨69, 69, .st 53⟩, ⟨70, 90, .st 21⟩,
     ⟨94, 100, .st 21⟩, ⟨101, 101, .st 53⟩, ⟨102, 122, .st 21⟩,
     ⟨124, 124, .st 21⟩, ⟨126, 126, .st 21⟩],
    [⟨33, 33, .st 21⟩, ⟨35, 39, .st 21⟩, ⟨42, 43, .st 21⟩,
     ⟨45, 46, .st 21⟩, ⟨48, 57, .st 21⟩, ⟨58, 58, .tr 39⟩,
     ⟨65, 77, .st 21⟩, ⟨78, 78, .st 54⟩, ⟨79, 90, .st 21⟩,
     ⟨94, 109, .st 21⟩, ⟨110, 110, .st 54⟩, ⟨111, 122, .st 21⟩,
     ⟨124, 124, .st 21⟩, ⟨126, 126, .st 21⟩],
    [⟨33, 33, .st 21⟩, ⟨35, 39, .st 21⟩, ⟨42, 43, .st 21⟩,
     ⟨45, 46, .st 21⟩, ⟨48, 57, .st 21⟩, ⟨58, 58, .tr 39⟩,
     ⟨65, 66, .st 21⟩, ⟨67, 67, .st 55⟩, ⟨68, 90, .st 21⟩,
     ⟨94, 98, .st 21⟩, ⟨99, 99, .st 55⟩, ⟨100, 122, .st 21⟩,
     ⟨124, 124, .st 21⟩, ⟨126, 126, .st 21⟩],
    [⟨33, 33, .st 21⟩, ⟨35, 39, .st 21⟩, ⟨42, 43, .st 21⟩,
     ⟨45, 46, .st 21⟩, ⟨48, 57, .st 21⟩, ⟨58, 58, .tr 39⟩,
     ⟨65, 78, .st 21⟩, ⟨79, 79, .st 56⟩, ⟨80, 90, .st 21⟩,
     ⟨94, 110, .st 21⟩, ⟨111, 111, .st 56⟩, ⟨112, 122, .st 21⟩,
     ⟨124, 124, .st 21⟩, ⟨126, 126, .st 21⟩],
    [⟨33, 33, .st 21⟩, ⟨35, 39, .st 21⟩, ⟨42, 43, .st 21⟩,
     ⟨45, 46, .st 21⟩, ⟨48, 57, .st 21⟩, ⟨58, 58, .tr 39⟩,
     ⟨65, 67, .st 21⟩, ⟨68, 68, .st 57⟩, ⟨69, 90, .st 21⟩,
     ⟨94, 99, .st 21⟩, ⟨100, 100, .st 57⟩, ⟨101, 122, .st 21⟩,
     ⟨124, 124, .st 21⟩, ⟨126, 126, .st 21⟩],
    [⟨33, 33, .st 21⟩, ⟨35, 39, .st 21⟩, ⟨42, 43, .st 21⟩,
     ⟨45, 46, .st 21⟩, ⟨48, 57, .st 21⟩, ⟨58, 58, .tr 39⟩,
     ⟨65, 72, .st 21⟩, ⟨73, 73, .st 58⟩, ⟨74, 90, .st 21⟩,
     ⟨94, 104, .st 21⟩, ⟨105, 105, .st 58⟩, ⟨106, 122, .st 21⟩,
     ⟨124, 124, .st 21⟩, ⟨126, 126, .st 21⟩],
    [⟨33, 33, .st 21⟩, ⟨35, 39, .st 21⟩, ⟨42, 43, .st 21⟩,
     ⟨45, 46, .st 21⟩, ⟨48, 57, .st 21⟩, ⟨58, 58, .tr 39⟩,
     ⟨65, 77, .st 21⟩, ⟨78, 78, .st 59⟩, ⟨79, 90, .st 21⟩,
     ⟨94, 109, .st 21⟩, ⟨110, 110, .st 59⟩, ⟨111, 122, .st 21⟩,
     ⟨124, 124, .st 21⟩, ⟨126, 126, .st 21⟩],
    [⟨33, 33, .st 21⟩, ⟨35, 39, .st 21⟩, ⟨42, 43, .st 21⟩,
     ⟨45, 46, .st 21⟩, ⟨48, 57, .st 21⟩, ⟨58, 58, .tr 39⟩,
     ⟨65, 70, .st 21⟩, ⟨71, 71, .st 60⟩, ⟨72, 90, .st 21⟩,
     ⟨94, 102, .st 21⟩, ⟨103, 103, .st 60⟩, ⟨104, 122, .st 21⟩,
     ⟨124, 124, .st 21⟩, ⟨126, 126, .st 21⟩],
    -- st60
    [⟨33, 33, .st 21⟩, ⟨35, 39, .st 21⟩, ⟨42, 43, .st 21⟩,
     ⟨45, 46, .st 21⟩, ⟨48, 57, .st 21⟩, ⟨58, 58, .tr 95⟩,
     ⟨65, 90, .st 21⟩, ⟨94, 122, .st 21⟩, ⟨124, 124, .st 21⟩,
     ⟨126, 126, .st 21⟩],
    [⟨0, 8, .tr 40⟩, ⟨9, 9, .tr 96⟩, ⟨10, 10, .tr 97⟩, ⟨11, 12, .tr 96⟩,
     ⟨13, 13, .tr 98⟩, ⟨14, 31, .tr 40⟩, ⟨32, 32, .tr 96⟩,
     ⟨33, 66, .tr 40⟩, ⟨67, 67, .tr 99⟩, ⟨68, 98, .tr 40⟩,
     ⟨99, 99, .tr 99⟩, ⟨100, 255, .tr 40⟩],
    [⟨9, 9, .st 63⟩, ⟨10, 10, .tr 101⟩, ⟨11, 12, .st 63⟩, ⟨13, 13, .st 72⟩,
     ⟨32, 32, .st 63⟩, ⟨33, 33, .tr 35⟩, ⟨35, 39, .tr 35⟩,
     ⟨42, 43, .tr 35⟩, ⟨45, 46, .tr 35⟩, ⟨48, 57, .tr 35⟩,
     ⟨65, 66, .tr 35⟩, ⟨67, 67, .tr 103⟩, ⟨68, 83, .tr 35⟩,
     ⟨84, 84, .tr 37⟩, ⟨85, 90, .tr 35⟩, ⟨94, 98, .tr 35⟩,
     ⟨99, 99, .tr 103⟩, ⟨100, 115, .tr 35⟩, ⟨116, 116, .tr 37⟩,
     ⟨117, 122, .tr 35⟩, ⟨124, 124, .tr 35⟩, ⟨126, 126, .tr 35⟩],
    [⟨9, 13, .st 63⟩, ⟨32, 32, .st 63⟩, ⟨67, 67, .tr 104⟩,
     ⟨99, 99, .tr 104⟩],
    [⟨72, 72, .st 65⟩, ⟨104, 104, .st 65⟩],
    [⟨85, 85, .st 66⟩, ⟨117, 117, .st 66⟩],
    [⟨78, 78, .st 67⟩, ⟨110, 110, .st 67⟩],
    [⟨75, 75, .st 68⟩, ⟨107, 107, .st 68⟩],
    [⟨69, 69, .st 69⟩, ⟨101, 101, .st 69⟩],
    [⟨68, 68, .st 70⟩, ⟨100, 100, .st 70⟩],
    -- st70
    [⟨10, 10, .tr 111⟩, ⟨13, 13, .tr 112⟩],
    [⟨10, 10, .tr 113⟩],
    [⟨9, 9, .st 63⟩, ⟨10, 10, .tr 101⟩, ⟨11, 13, .st 63⟩, ⟨32, 32, .st 63⟩,
     ⟨67, 67, .tr 104⟩, ⟨99, 99, .tr 104⟩],
    [⟨33, 33, .st 21⟩, ⟨35, 39, .st 21⟩, ⟨42, 43, .st 21⟩,
     ⟨45, 46, .st 21⟩, ⟨48, 57, .st 21⟩, ⟨58, 58, .tr 39⟩,
     ⟨65, 71, .st 21⟩, ⟨72, 72, .st 74⟩, ⟨73, 78, .st 21⟩,
     ⟨79, 79, .st 26⟩, ⟨80, 90, .st 21⟩, ⟨94, 103, .st 21⟩,
     ⟨104, 104, .st 74⟩, ⟨105, 110, .st 21⟩, ⟨111, 111, .st 26⟩,
     ⟨112, 122, .st 21⟩, ⟨124, 124, .st 21⟩, ⟨126, 126, .st 21⟩],
    [⟨33, 33, .st 21⟩, ⟨35, 39, .st 21⟩, ⟨42, 43, .st 21⟩,
     ⟨45, 46, .st 21⟩, ⟨48, 57, .st 21⟩, ⟨58, 58, .tr 39⟩,
     ⟨65, 84, .st 21⟩, ⟨85, 85, .st 75⟩, ⟨86, 90, .st 21⟩,
     ⟨94, 116, .st 21⟩, ⟨117, 117, .st 75⟩, ⟨118, 122, .st 21⟩,
     ⟨124, 124, .st 21⟩, ⟨126, 126, .st 21⟩],
    [⟨33, 33, .st 21⟩, ⟨35, 39, .st 21⟩, ⟨42, 43, .st 21⟩,
     ⟨45, 46, .st 21⟩, ⟨48, 57, .st 21⟩, ⟨58, 58, .tr 39⟩,
     ⟨65, 77, .st 21⟩, ⟨78, 78, .st 76⟩, ⟨79, 90, .st 21⟩,
     ⟨94, 109, .st 21⟩, ⟨110, 110, .st 76⟩, ⟨111, 122, .st 21⟩,
     ⟨124, 124, .st 21⟩, ⟨126, 126, .st 21⟩],
    [⟨33, 33, .st 21⟩, ⟨35, 39, .st 21⟩, ⟨42, 43, .st 21⟩,
     ⟨45, 46, .st 21⟩, ⟨48, 57, .st 21⟩, ⟨58, 58, .tr 39⟩,
     ⟨65, 74, .st 21⟩, ⟨75, 75, .st 77⟩, ⟨76, 90, .st 21⟩,
     ⟨94, 106, .st 21⟩, ⟨107, 107, .st 77⟩, ⟨108, 122, .st 21⟩,
     ⟨124, 124, .st 21⟩, ⟨126, 126, .st 21⟩],
    [⟨33, 33, .st 21⟩, ⟨35, 39, .st 21⟩, ⟨42, 43, .st 21⟩,
     ⟨45, 46, .st 21⟩, ⟨48, 57, .st 21⟩, ⟨58, 58, .tr 39⟩,
     ⟨65, 68, .st 21⟩, ⟨69, 69, .st 78⟩, ⟨70, 90, .st 21⟩,
     ⟨94, 100, .st 21⟩, ⟨101, 101, .st 78⟩, ⟨102, 122, .st 21⟩,
     ⟨124, 124, .st 21⟩, ⟨126, 126, .st 21⟩],
    [⟨33, 33, .st 21⟩, ⟨35, 39, .st 21⟩, ⟨42, 43, .st 21⟩,
     ⟨45, 46, .st 21⟩, ⟨48, 57, .st 21⟩, ⟨58, 58, .tr 39⟩,
     ⟨65, 67, .st 21⟩, ⟨68, 68, .st 79⟩, ⟨69, 90, .st 21⟩,
     ⟨94, 99, .st 21⟩, ⟨100, 100, .st 79⟩, ⟨101, 122, .st 21⟩,
     ⟨124, 124, .st 21⟩, ⟨126, 126, .st 21⟩],
    [⟨10, 10, .tr 111⟩, ⟨13, 13, .tr 112⟩, ⟨33, 33, .st 21⟩,
     ⟨35, 39, .st 21⟩, ⟨42, 43, .st 21⟩, ⟨45, 46, .st 21⟩,
     ⟨48, 57, .st 21⟩, ⟨58, 58, .tr 39⟩, ⟨65, 90, .st 21⟩,
     ⟨94, 122, .st 21⟩, ⟨124, 124, .st 21⟩, ⟨126, 126, .st 21⟩],
    -- st80
    [⟨9, 9, .st 63⟩, ⟨10, 10, .st 62⟩, ⟨11, 13, .st 63⟩, ⟨32, 32, .st 63⟩,
     ⟨67, 67, .tr 104⟩, ⟨99, 99, .tr 104⟩],
    [⟨0, 9, .st 23⟩, ⟨10, 10, .tr 45⟩, ⟨11, 12, .st 23⟩, ⟨13, 13, .tr 46⟩,
     ⟨14, 71, .st 23⟩, ⟨72, 72, .st 82⟩, ⟨73, 103, .st 23⟩,
     ⟨104, 104, .st 82⟩, ⟨105, 255, .st 23⟩],
    [⟨0, 9, .st 23⟩, ⟨10, 10, .tr 45⟩, ⟨11, 12, .st 23⟩, ⟨13, 13, .tr 46⟩,
     ⟨14, 84, .st 23⟩, ⟨85, 85, .st 83⟩, ⟨86, 116, .st 23⟩,
     ⟨117, 117, .st 83⟩, ⟨118, 255, .st 23⟩],
    [⟨0, 9, .st 23⟩, ⟨10, 10, .tr 45⟩, ⟨11, 12, .st 23⟩, ⟨13, 13, .tr 46⟩,
     ⟨14, 77, .st 23⟩, ⟨78, 78, .st 84⟩, ⟨79, 109, .st 23⟩,
     ⟨110, 110, .st 84⟩, ⟨111, 255, .st 23⟩],
    [⟨0, 9, .st 23⟩, ⟨10, 10, .tr 45⟩, ⟨11, 12, .st 23⟩, ⟨13, 13, .tr 46⟩,
     ⟨14, 74, .st 23⟩, ⟨75, 75, .st 85⟩, ⟨76, 106, .st 23⟩,
     ⟨107, 107, .st 85⟩, ⟨108, 255, .st 23⟩],
    [⟨0, 9, .st 23⟩, ⟨10, 10, .tr 45⟩, ⟨11, 12, .st 23⟩, ⟨13, 13, .tr 46⟩,
     ⟨14, 68, .st 23⟩, ⟨69, 69, .st 86⟩, ⟨70, 100, .st 23⟩,
     ⟨101, 101, .st 86⟩, ⟨102, 255, .st 23⟩],
    [⟨0, 9, .st 23⟩, ⟨10, 10, .tr 45⟩, ⟨11, 12, .st 23⟩, ⟨13, 13, .tr 46⟩,
     ⟨14, 67, .st 23⟩, ⟨68, 68, .st 87⟩, ⟨69, 99, .st 23⟩,
     ⟨100, 100, .st 87⟩, ⟨101, 255, .st 23⟩],
    [⟨0, 9, .st 23⟩, ⟨10, 10, .tr 111⟩, ⟨11, 12, .st 23⟩,
     ⟨13, 13, .tr 112⟩, ⟨14, 255, .st 23⟩],
    [⟨10, 10, .st 43⟩],
    [⟨9, 9, .st 37⟩, ⟨10, 10, .tr 64⟩, ⟨11, 13, .st 37⟩, ⟨32, 32, .st 37⟩,
     ⟨67, 67, .st 38⟩, ⟨99, 99, .st 38⟩],
    -- st90
    [⟨33, 33, .st 21⟩, ⟨35, 39, .st 21⟩, ⟨42, 43, .st 21⟩,
     ⟨45, 46, .st 21⟩, ⟨48, 57, .st 21⟩, ⟨58, 58, .tr 39⟩,
     ⟨65, 75, .st 21⟩, ⟨76, 76, .st 91⟩, ⟨77, 78, .st 21⟩,
     ⟨79, 79, .st 26⟩, ⟨80, 90, .st 21⟩, ⟨94, 107, .st 21⟩,
     ⟨108, 108, .st 91⟩, ⟨109, 110, .st 21⟩, ⟨111, 111, .st 26⟩,
     ⟨112, 122, .st 21⟩, ⟨124, 124, .st 21⟩, ⟨126, 126, .st 21⟩],
    [⟨33, 33, .st 21⟩, ⟨35, 39, .st 21⟩, ⟨42, 43, .st 21⟩,
     ⟨45, 46, .st 21⟩, ⟨48, 57, .st 21⟩, ⟨58, 58, .tr 39⟩,
     ⟨65, 78, .st 21⟩, ⟨79, 79, .st 92⟩, ⟨80, 90, .st 21⟩,
     ⟨94, 110, .st 21⟩, ⟨111, 111, .st 92⟩, ⟨112, 122, .st 21⟩,
     ⟨124, 124, .st 21⟩, ⟨126, 126, .st 21⟩],
    [⟨33, 33, .st 21⟩, ⟨35, 39, .st 21⟩, ⟨42, 43, .st 21⟩,
     ⟨45, 46, .st 21⟩, ⟨48, 57, .st 21⟩, ⟨58, 58, .tr 39⟩,
     ⟨65, 82, .st 21⟩, ⟨83, 83, .st 93⟩, ⟨84, 90, .st 21⟩,
     ⟨94, 114, .st 21⟩, ⟨115, 115, .st 93⟩, ⟨116, 122, .st 21⟩,
     ⟨124, 124, .st 21⟩, ⟨126, 126, .st 21⟩],
    [⟨33, 33, .st 21⟩, ⟨35, 39, .st 21⟩, ⟨42, 43, .st 21⟩,
     ⟨45, 46, .st 21⟩, ⟨48, 57, .st 21⟩, ⟨58, 58, .tr 39⟩,
     ⟨65, 68, .st 21⟩, ⟨69, 69, .st 94⟩, ⟨70, 90, .st 21⟩,
     ⟨94, 100, .st 21⟩, ⟨101, 101, .st 94⟩, ⟨102, 122, .st 21⟩,
     ⟨124, 124, .st 21⟩, ⟨126, 126, .st 21⟩],
    [⟨10, 10, .st 43⟩, ⟨13, 13, .st 88⟩, ⟨33, 33, .st 21⟩,
     ⟨35, 39, .st 21⟩, ⟨42, 43, .st 21⟩, ⟨45, 46, .st 21⟩,
     ⟨48, 57, .st 21⟩, ⟨58, 58, .tr 39⟩, ⟨65, 90, .st 21⟩,
     ⟨94, 122, .st 21⟩, ⟨124, 124, .st 21⟩, ⟨126, 126, .st 21⟩],
    [⟨9, 9, .st 37⟩, ⟨10, 10, .st 36⟩, ⟨11, 13, .st 37⟩, ⟨32, 32, .st 37⟩,
     ⟨67, 67, .st 38⟩, ⟨99, 99, .st 38⟩],
    [⟨0, 9, .st 23⟩, ⟨10, 10, .tr 45⟩, ⟨11, 12, .st 23⟩, ⟨13, 13, .tr 46⟩,
     ⟨14, 75, .st 23⟩, ⟨76, 76, .st 97⟩, ⟨77, 107, .st 23⟩,
     ⟨108, 108, .st 97⟩, ⟨109, 255, .st 23⟩],
    [⟨0, 9, .st 23⟩, ⟨10, 10, .tr 45⟩, ⟨11, 12, .st 23⟩, ⟨13, 13, .tr 46⟩,
     ⟨14, 78, .st 23⟩, ⟨79, 79, .st 98⟩, ⟨80, 110, .st 23⟩,
     ⟨111, 111, .st 98⟩, ⟨112, 255, .st 23⟩],
    [⟨0, 9, .st 23⟩, ⟨10, 10, .tr 45⟩, ⟨11, 12, .st 23⟩, ⟨13, 13, .tr 46⟩,
     ⟨14, 82, .st 23⟩, ⟨83, 83, .st 99⟩, ⟨84, 114, .st 23⟩,
     ⟨115, 115, .st 99⟩, ⟨116, 255, .st 23⟩],
    [⟨0, 9, .st 23⟩, ⟨10, 10, .tr 45⟩, ⟨11, 12, .st 23⟩, ⟨13, 13, .tr 46⟩,
     ⟨14, 68, .st 23⟩, ⟨69, 69, .st 100⟩, ⟨70, 100, .st 23⟩,
     ⟨101, 101, .st 100⟩, ⟨102, 255, .st 23⟩],
    -- st100
    [⟨0, 9, .st 23⟩, ⟨10, 10, .tr 136⟩, ⟨11, 12, .st 23⟩,
     ⟨13, 13, .tr 137⟩, ⟨14, 255, .st 23⟩],
    [⟨33, 33, .st 21⟩, ⟨35, 39, .st 21⟩, ⟨42, 43, .st 21⟩,
     ⟨45, 46, .st 21⟩, ⟨48, 57, .st 21⟩, ⟨58, 58, .tr 39⟩,
     ⟨65, 68, .st 21⟩, ⟨69, 69, .st 102⟩, ⟨70, 90, .st 21⟩,
     ⟨94, 100, .st 21⟩, ⟨101, 101, .st 102⟩, ⟨102, 122, .st 21⟩,
     ⟨124, 124, .st 21⟩, ⟨126, 126, .st 21⟩],
    [⟨33, 33, .st 21⟩, ⟨35, 39, .st 21⟩, ⟨42, 43, .st 21⟩,
     ⟨45, 46, .st 21⟩, ⟨48, 57, .st 21⟩, ⟨58, 58, .tr 39⟩,
     ⟨65, 77, .st 21⟩, ⟨78, 78, .st 103⟩, ⟨79, 90, .st 21⟩,
     ⟨94, 109, .st 21⟩, ⟨110, 110, .st 103⟩, ⟨111, 122, .st 21⟩,
     ⟨124, 124, .st 21⟩, ⟨126, 126, .st 21⟩],
    [⟨33, 33, .st 21⟩, ⟨35, 39, .st 21⟩, ⟨42, 43, .st 21⟩,
     ⟨45, 46, .st 21⟩, ⟨48, 57, .st 21⟩, ⟨58, 58, .tr 39⟩,
     ⟨65, 83, .st 21⟩, ⟨84, 84, .st 104⟩, ⟨85, 90, .st 21⟩,
     ⟨94, 115, .st 21⟩, ⟨116, 116, .st 104⟩, ⟨117, 122, .st 21⟩,
     ⟨124, 124, .st 21⟩, ⟨126, 126, .st 21⟩],
    [⟨33, 33, .st 21⟩, ⟨35, 39, .st 21⟩, ⟨42, 43, .st 21⟩,
     ⟨45, 45, .st 105⟩, ⟨46, 46, .st 21⟩, ⟨48, 57, .st 21⟩,
     ⟨58, 58, .tr 39⟩, ⟨65, 90, .st 21⟩, ⟨94, 122, .st 21⟩,
     ⟨124, 124, .st 21⟩, ⟨126, 126, .st 21⟩],
    [⟨33, 33, .st 21⟩, ⟨35, 39, .st 21⟩, ⟨42, 43, .st 21⟩,
     ⟨45, 46, .st 21⟩, ⟨48, 57, .st 21⟩, ⟨58, 58, .tr 39⟩,
     ⟨65, 75, .st 21⟩, ⟨76, 76, .st 106⟩, ⟨77, 90, .st 21⟩,
     ⟨94, 107, .st 21⟩, ⟨108, 108, .st 106⟩, ⟨109, 122, .st 21⟩,
     ⟨124, 124, .st 21⟩, ⟨126, 126, .st 21⟩],
    [⟨33, 33, .st 21⟩, ⟨35, 39, .st 21⟩, ⟨42, 43, .st 21⟩,
     ⟨45, 46, .st 21⟩, ⟨48, 57, .st 21⟩, ⟨58, 58, .tr 39⟩,
     ⟨65, 68, .st 21⟩, ⟨69, 69, .st 107⟩, ⟨70, 90, .st 21⟩,
     ⟨94, 100, .st 21⟩, ⟨101, 101, .st 107⟩, ⟨102, 122, .st 21⟩,
     ⟨124, 124, .st 21⟩, ⟨126, 126, .st 21⟩],
    [⟨33, 33, .st 21⟩, ⟨35, 39, .st 21⟩, ⟨42, 43, .st 21⟩,
     ⟨45, 46, .st 21⟩, ⟨48, 57, .st 21⟩, ⟨58, 58, .tr 39⟩,
     ⟨65, 77, .st 21⟩, ⟨78, 78, .st 108⟩, ⟨79, 90, .st 21⟩,
     ⟨94, 109, .st 21⟩, ⟨110, 110, .st 108⟩, ⟨111, 122, .st 21⟩,
     ⟨124, 124, .st 21⟩, ⟨126, 126, .st 21⟩],
    [⟨33, 33, .st 21⟩, ⟨35, 39, .st 21⟩, ⟨42, 43, .st 21⟩,
     ⟨45, 46, .st 21⟩, ⟨48, 57, .st 21⟩, ⟨58, 58, .tr 39⟩,
     ⟨65, 70, .st 21⟩, ⟨71, 71, .st 109⟩, ⟨72, 90, .st 21⟩,
     ⟨94, 102, .st 21⟩, ⟨103, 103, .st 109⟩, ⟨104, 122, .st 21⟩,
     ⟨124, 124, .st 21⟩, ⟨126, 126, .st 21⟩],
    [⟨33, 33, .st 21⟩, ⟨35, 39, .st 21⟩, ⟨42, 43, .st 21⟩,
     ⟨45, 46, .st 21⟩, ⟨48, 57, .st 21⟩, ⟨58, 58, .tr 39⟩,
     ⟨65, 83, .st 21⟩, ⟨84, 84, .st 110⟩, ⟨85, 90, .st 21⟩,
     ⟨94, 115, .st 21⟩, ⟨116, 116, .st 110⟩, ⟨117, 122, .st 21⟩,
     ⟨124, 124, .st 21⟩, ⟨126, 126, .st 21⟩],
    -- st110
    [⟨33, 33, .st 21⟩, ⟨35, 39, .st 21⟩, ⟨42, 43, .st 21⟩,
     ⟨45, 46, .st 21⟩, ⟨48, 57, .st 21⟩, ⟨58, 58, .tr 39⟩,
     ⟨65, 71, .st 21⟩, ⟨72, 72, .st 111⟩, ⟨73, 90, .st 21⟩,
     ⟨94, 103, .st 21⟩, ⟨104, 104, .st 111⟩, ⟨105, 122, .st 21⟩,
     ⟨124, 124, .st 21⟩, ⟨126, 126, .st 21⟩],
    [⟨33, 33, .st 21⟩, ⟨35, 39, .st 21⟩, ⟨42, 43, .st 21⟩,
     ⟨45, 46, .st 21⟩, ⟨48, 57, .st 21⟩, ⟨58, 58, .tr 148⟩,
     ⟨65, 90, .st 21⟩, ⟨94, 122, .st 21⟩, ⟨124, 124, .st 21⟩,
     ⟨126, 126, .st 21⟩],
    [⟨0, 8, .tr 40⟩, ⟨9, 9, .tr 149⟩, ⟨10, 10, .tr 150⟩, ⟨11, 12, .tr 149⟩,
     ⟨13, 13, .tr 151⟩, ⟨14, 31, .tr 40⟩, ⟨32, 32, .tr 149⟩,
     ⟨33, 47, .tr 40⟩, ⟨48, 57, .tr 152⟩, ⟨58, 255, .tr 40⟩],
    [⟨9, 9, .st 114⟩, ⟨10, 10, .tr 154⟩, ⟨11, 12, .st 114⟩,
     ⟨13, 13, .st 116⟩, ⟨32, 32, .st 114⟩, ⟨33, 33, .tr 35⟩,
     ⟨35, 39, .tr 35⟩, ⟨42, 43, .tr 35⟩, ⟨45, 46, .tr 35⟩,
     ⟨48, 57, .tr 156⟩, ⟨65, 66, .tr 35⟩, ⟨67, 67, .tr 36⟩,
     ⟨68, 83, .tr 35⟩, ⟨84, 84, .tr 37⟩, ⟨85, 90, .tr 35⟩,
     ⟨94, 98, .tr 35⟩, ⟨99, 99, .tr 36⟩, ⟨100, 115, .tr 35⟩,
     ⟨116, 116, .tr 37⟩, ⟨117, 122, .tr 35⟩, ⟨124, 124, .tr 35⟩,
     ⟨126, 126, .tr 35⟩],
    [⟨9, 13, .st 114⟩, ⟨32, 32, .st 114⟩, ⟨48, 57, .tr 157⟩],
    [⟨10, 10, .tr 158⟩, ⟨13, 13, .tr 159⟩, ⟨48, 57, .st 115⟩],
    [⟨9, 9, .st 114⟩, ⟨10, 10, .tr 154⟩, ⟨11, 13, .st 114⟩,
     ⟨32, 32, .st 114⟩, ⟨48, 57, .tr 157⟩],
    [⟨10, 10, .tr 158⟩, ⟨13, 13, .tr 159⟩, ⟨33, 33, .st 21⟩,
     ⟨35, 39, .st 21⟩, ⟨42, 43, .st 21⟩, ⟨45, 46, .st 21⟩,
     ⟨48, 57, .st 117⟩, ⟨58, 58, .tr 39⟩, ⟨65, 90, .st 21⟩,
     ⟨94, 122, .st 21⟩, ⟨124, 124, .st 21⟩, ⟨126, 126, .st 21⟩],
    [⟨9, 9, .st 114⟩, ⟨10, 10, .st 113⟩, ⟨11, 13, .st 114⟩,
     ⟨32, 32, .st 114⟩, ⟨48, 57, .tr 157⟩],
    [⟨0, 9, .st 23⟩, ⟨10, 10, .tr 158⟩, ⟨11, 12, .st 23⟩,
     ⟨13, 13, .tr 159⟩, ⟨14, 47, .st 23⟩, ⟨48, 57, .st 119⟩,
     ⟨58, 255, .st 23⟩],
    -- st120
    [],
    [⟨9, 13, .st 63⟩, ⟨32, 32, .st 63⟩, ⟨67, 67, .tr 104⟩,
     ⟨99, 99, .tr 104⟩],
    [⟨9, 13, .st 37⟩, ⟨32, 32, .st 37⟩, ⟨67, 67, .st 38⟩, ⟨99, 99, .st 38⟩],
    [⟨9, 13, .st 114⟩, ⟨32, 32, .st 114⟩, ⟨48, 57, .tr 157⟩]]

def resolve : Label → Option (List ClientAction × Nat)
  | .st n => some ([], n)
  | .tr n => (actions.find? fun a => a.1 = n).map Prod.snd

/-- The jump of state `cs` on the byte `b`: the actions and the next
state; `none` to the error state. -/
def transition (cs : Nat) (b : UInt8) : Option (List ClientAction × Nat) :=
  (tableLookup rows cs b.toNat).bind resolve

end ClientTable

end TinyServer.Http
