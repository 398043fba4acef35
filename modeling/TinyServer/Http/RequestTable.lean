/-
The machine of `http_parser_execute` (http11_parser.rl.cpp).

The generated code is a `goto` program: one `case` a state, whose tests
on `*p` jump to a label `stN` (go to state N) or `trN` (perform actions,
then go to a state). The table lists these jumps: row N holds the ranges
of `case N`, in byte order, with the label each jumps to; a byte in no
range jumps to `st0`, the error state. Bytes from 128 on are the negative
`char`s of the source.

In thirty states the bytes `^`, `{` and `}` are accepted only `when
parser->uri_relaxed`; the rows are those of a relaxed parser, and
`transition` leaves the three out otherwise.
-/
import TinyServer.Lib.Machine

namespace TinyServer.Http

open Lib

/-- The actions of http11_parser.rl; `start_value` is `mark`. -/
inductive HttpAction
  | mark
  | startField
  | writeField
  | writeValue
  | requestMethod
  | requestUri
  | fragment
  | startQuery
  | queryString
  | httpVersion
  | requestPath
  | done
  | xml
  | json
  deriving DecidableEq, Repr

/-- The labels of the generated code. -/
inductive Label
  | st (n : Nat)
  | tr (n : Nat)
  deriving DecidableEq, Repr

namespace RequestTable

/-- `http_parser_start`. -/
def start : Nat := 1

/-- `http_parser_first_final`. -/
def firstFinal : Nat := 348

/-- What stands at the labels `trN`: the actions and the state after
them. -/
def actions : List (Nat × List HttpAction × Nat) :=
  [ (0, [.mark], 2),
    (2, [.mark], 194),
    (3, [.mark], 198),
    (4, [.requestMethod], 3),
    (6, [.mark, .requestPath, .requestUri], 4),
    (7, [.mark], 19),
    (8, [.mark, .requestPath, .requestUri], 20),
    (9, [.mark], 24),
    (10, [.mark], 33),
    (11, [.mark, .requestPath], 29),
    (12, [.mark], 173),
    (13, [.mark], 5),
    (21, [.httpVersion], 13),
    (22, [.httpVersion], 17),
    (23, [.startField], 14),
    (24, [.startField, .done], 348),
    (25, [.startField], 18),
    (27, [.writeField], 15),
    (28, [.mark], 16),
    (29, [.mark], 15),
    (30, [.mark, .writeValue], 13),
    (31, [.mark, .writeValue], 17),
    (33, [.writeValue], 13),
    (34, [.writeValue], 17),
    (36, [.done], 348),
    (37, [.requestPath, .requestUri], 4),
    (39, [.requestPath, .requestUri], 20),
    (42, [.requestPath], 29),
    (43, [.mark, .fragment], 4),
    (44, [.mark], 21),
    (45, [.mark], 22),
    (46, [.fragment], 4),
    (53, [.startQuery, .queryString, .requestUri], 4),
    (54, [.startQuery], 30),
    (55, [.startQuery, .queryString, .requestUri], 20),
    (56, [.startQuery], 31),
    (57, [.queryString, .requestUri], 4),
    (59, [.queryString, .requestUri], 20),
    (203, [.mark], 26),
    (204, [.mark], 27),
    (224, [.requestPath], 196),
    (227, [.xml, .done], 349),
    (228, [.requestPath], 199),
    (232, [.mark], 200),
    (235, [.json, .done], 349)]

/-- The states with `uri_relaxed` tests. -/
def relaxedStates : List Nat :=
  [ 3, 19, 20, 21, 26, 29, 30, 33, 34, 35, 38, 39, 42, 43, 171, 172, 173,
    174, 198, 202, 205, 208, 209, 210, 213, 214, 217, 218, 346, 347]

/-- The rows of states 0 to 349. -/
def rows : List (List (Range Label)) :=
  [
    -- st0
    [],
    [⟨48, 57, .tr 0⟩, ⟨60, 60, .tr 2⟩, ⟨64, 64, .tr 3⟩, ⟨65, 90, .tr 0⟩],
    [⟨32, 32, .tr 4⟩, ⟨48, 57, .st 175⟩, ⟨65, 90, .st 175⟩],
    [⟨32, 32, .tr 6⟩, ⟨33, 33, .tr 7⟩, ⟨35, 35, .tr 8⟩, ⟨36, 36, .tr 7⟩,
     ⟨37, 37, .tr 9⟩, ⟨38, 46, .tr 7⟩, ⟨47, 47, .tr 10⟩, ⟨48, 57, .tr 7⟩,
     ⟨59, 59, .tr 7⟩, ⟨61, 61, .tr 7⟩, ⟨63, 63, .tr 11⟩, ⟨64, 64, .tr 7⟩,
     ⟨65, 90, .tr 12⟩, ⟨94, 95, .tr 7⟩, ⟨97, 122, .tr 12⟩,
     ⟨123, 123, .tr 7⟩, ⟨125, 126, .tr 7⟩],
    [⟨72, 72, .tr 13⟩],
    [⟨84, 84, .st 6⟩],
    [⟨84, 84, .st 7⟩],
    [⟨80, 80, .st 8⟩],
    [⟨47, 47, .st 9⟩],
    [⟨49, 49, .st 10⟩],
    -- st10
    [⟨46, 46, .st 11⟩],
    [⟨48, 49, .st 12⟩],
    [⟨10, 10, .tr 21⟩, ⟨13, 13, .tr 22⟩],
    [⟨1, 8, .tr 23⟩, ⟨10, 10, .tr 24⟩, ⟨11, 12, .tr 23⟩, ⟨13, 13, .tr 25⟩,
     ⟨14, 31, .tr 23⟩, ⟨33, 33, .tr 23⟩, ⟨35, 39, .tr 23⟩,
     ⟨42, 43, .tr 23⟩, ⟨45, 46, .tr 23⟩, ⟨48, 57, .tr 23⟩,
     ⟨65, 90, .tr 23⟩, ⟨94, 122, .tr 23⟩, ⟨124, 124, .tr 23⟩,
     ⟨126, 126, .tr 23⟩],
    [⟨1, 8, .st 14⟩, ⟨10, 31, .st 14⟩, ⟨33, 33, .st 14⟩, ⟨35, 39, .st 14⟩,
     ⟨42, 43, .st 14⟩, ⟨45, 46, .st 14⟩, ⟨48, 57, .st 14⟩,
     ⟨58, 58, .tr 27⟩, ⟨65, 90, .st 14⟩, ⟨94, 122, .st 14⟩,
     ⟨124, 124, .st 14⟩, ⟨126, 126, .st 14⟩],
    [⟨1, 8, .tr 28⟩, ⟨9, 9, .tr 29⟩, ⟨10, 10, .tr 30⟩, ⟨11, 12, .tr 28⟩,
     ⟨13, 13, .tr 31⟩, ⟨14, 31, .tr 28⟩, ⟨32, 32, .tr 29⟩,
     ⟨33, 126, .tr 28⟩, ⟨128, 255, .tr 28⟩],
    [⟨1, 9, .st 16⟩, ⟨10, 10, .tr 33⟩, ⟨11, 12, .st 16⟩, ⟨13, 13, .tr 34⟩,
     ⟨14, 126, .st 16⟩, ⟨128, 255, .st 16⟩],
    [⟨10, 10, .st 13⟩],
    [⟨1, 8, .st 14⟩, ⟨10, 10, .tr 36⟩, ⟨11, 31, .st 14⟩, ⟨33, 33, .st 14⟩,
     ⟨35, 39, .st 14⟩, ⟨42, 43, .st 14⟩, ⟨45, 46, .st 14⟩,
     ⟨48, 57, .st 14⟩, ⟨58, 58, .tr 27⟩, ⟨65, 90, .st 14⟩,
     ⟨94, 122, .st 14⟩, ⟨124, 124, .st 14⟩, ⟨126, 126, .st 14⟩],
    [⟨32, 32, .tr 37⟩, ⟨33, 33, .st 19⟩, ⟨35, 35, .tr 39⟩,
     ⟨36, 36, .st 19⟩, ⟨37, 37, .st 24⟩, ⟨38, 46, .st 19⟩,
     ⟨47, 47, .st 26⟩, ⟨48, 57, .st 19⟩, ⟨59, 59, .st 19⟩,
     ⟨61, 61, .st 19⟩, ⟨63, 63, .tr 42⟩, ⟨64, 90, .st 19⟩,
     ⟨94, 95, .st 19⟩, ⟨97, 123, .st 19⟩, ⟨125, 126, .st 19⟩],
    -- st20
    [⟨32, 32, .tr 43⟩, ⟨33, 33, .tr 44⟩, ⟨36, 36, .tr 44⟩,
     ⟨37, 37, .tr 45⟩, ⟨38, 59, .tr 44⟩, ⟨61, 61, .tr 44⟩,
     ⟨63, 90, .tr 44⟩, ⟨94, 95, .tr 44⟩, ⟨97, 123, .tr 44⟩,
     ⟨125, 126, .tr 44⟩],
    [⟨32, 32, .tr 46⟩, ⟨33, 33, .st 21⟩, ⟨36, 36, .st 21⟩,
     ⟨37, 37, .st 22⟩, ⟨38, 59, .st 21⟩, ⟨61, 61, .st 21⟩,
     ⟨63, 90, .st 21⟩, ⟨94, 95, .st 21⟩, ⟨97, 123, .st 21⟩,
     ⟨125, 126, .st 21⟩],
    [⟨48, 57, .st 23⟩, ⟨65, 70, .st 23⟩, ⟨97, 102, .st 23⟩],
    [⟨48, 57, .st 21⟩, ⟨65, 70, .st 21⟩, ⟨97, 102, .st 21⟩],
    [⟨48, 57, .st 25⟩, ⟨65, 70, .st 25⟩, ⟨97, 102, .st 25⟩],
    [⟨48, 57, .st 19⟩, ⟨65, 70, .st 19⟩, ⟨97, 102, .st 19⟩],
    [⟨32, 32, .tr 37⟩, ⟨33, 33, .st 26⟩, ⟨35, 35, .tr 39⟩,
     ⟨36, 36, .st 26⟩, ⟨37, 37, .st 27⟩, ⟨38, 59, .st 26⟩,
     ⟨61, 61, .st 26⟩, ⟨63, 63, .tr 42⟩, ⟨64, 90, .st 26⟩,
     ⟨94, 95, .st 26⟩, ⟨97, 123, .st 26⟩, ⟨125, 126, .st 26⟩],
    [⟨48, 57, .st 28⟩, ⟨65, 70, .st 28⟩, ⟨97, 102, .st 28⟩],
    [⟨48, 57, .st 26⟩, ⟨65, 70, .st 26⟩, ⟨97, 102, .st 26⟩],
    [⟨32, 32, .tr 53⟩, ⟨33, 33, .tr 54⟩, ⟨35, 35, .tr 55⟩,
     ⟨36, 36, .tr 54⟩, ⟨37, 37, .tr 56⟩, ⟨38, 59, .tr 54⟩,
     ⟨61, 61, .tr 54⟩, ⟨63, 90, .tr 54⟩, ⟨94, 95, .tr 54⟩,
     ⟨97, 123, .tr 54⟩, ⟨125, 126, .tr 54⟩],
    -- st30
    [⟨32, 32, .tr 57⟩, ⟨33, 33, .st 30⟩, ⟨35, 35, .tr 59⟩,
     ⟨36, 36, .st 30⟩, ⟨37, 37, .st 31⟩, ⟨38, 59, .st 30⟩,
     ⟨61, 61, .st 30⟩, ⟨63, 90, .st 30⟩, ⟨94, 95, .st 30⟩,
     ⟨97, 123, .st 30⟩, ⟨125, 126, .st 30⟩],
    [⟨48, 57, .st 32⟩, ⟨65, 70, .st 32⟩, ⟨97, 102, .st 32⟩],
    [⟨48, 57, .st 30⟩, ⟨65, 70, .st 30⟩, ⟨97, 102, .st 30⟩],
    [⟨32, 32, .tr 37⟩, ⟨33, 33, .st 26⟩, ⟨35, 35, .tr 39⟩,
     ⟨36, 36, .st 26⟩, ⟨37, 37, .st 27⟩, ⟨38, 46, .st 26⟩,
     ⟨47, 47, .st 34⟩, ⟨48, 59, .st 26⟩, ⟨61, 61, .st 26⟩,
     ⟨63, 63, .tr 42⟩, ⟨64, 90, .st 26⟩, ⟨94, 95, .st 26⟩,
     ⟨97, 123, .st 26⟩, ⟨125, 126, .st 26⟩],
    [⟨32, 32, .tr 37⟩, ⟨33, 33, .st 35⟩, ⟨35, 35, .tr 39⟩,
     ⟨36, 36, .st 35⟩, ⟨37, 37, .st 36⟩, ⟨38, 46, .st 35⟩,
     ⟨47, 47, .st 26⟩, ⟨48, 57, .st 35⟩, ⟨58, 58, .st 38⟩,
     ⟨59, 59, .st 35⟩, ⟨61, 61, .st 35⟩, ⟨63, 63, .tr 42⟩,
     ⟨64, 64, .st 42⟩, ⟨65, 90, .st 35⟩, ⟨91, 91, .st 47⟩,
     ⟨94, 95, .st 35⟩, ⟨97, 123, .st 35⟩, ⟨125, 126, .st 35⟩],
    [⟨32, 32, .tr 37⟩, ⟨33, 33, .st 35⟩, ⟨35, 35, .tr 39⟩,
     ⟨36, 36, .st 35⟩, ⟨37, 37, .st 36⟩, ⟨38, 46, .st 35⟩,
     ⟨47, 47, .st 26⟩, ⟨48, 57, .st 35⟩, ⟨58, 58, .st 38⟩,
     ⟨59, 59, .st 35⟩, ⟨61, 61, .st 35⟩, ⟨63, 63, .tr 42⟩,
     ⟨64, 64, .st 42⟩, ⟨65, 90, .st 35⟩, ⟨94, 95, .st 35⟩,
     ⟨97, 123, .st 35⟩, ⟨125, 126, .st 35⟩],
    [⟨48, 57, .st 37⟩, ⟨65, 70, .st 37⟩, ⟨97, 102, .st 37⟩],
    [⟨48, 57, .st 35⟩, ⟨65, 70, .st 35⟩, ⟨97, 102, .st 35⟩],
    [⟨32, 32, .tr 37⟩, ⟨33, 33, .st 39⟩, ⟨35, 35, .tr 39⟩,
     ⟨36, 36, .st 39⟩, ⟨37, 37, .st 40⟩, ⟨38, 46, .st 39⟩,
     ⟨47, 47, .st 26⟩, ⟨48, 57, .st 38⟩, ⟨58, 59, .st 39⟩,
     ⟨61, 61, .st 39⟩, ⟨63, 63, .tr 42⟩, ⟨64, 64, .st 42⟩,
     ⟨65, 90, .st 39⟩, ⟨94, 95, .st 39⟩, ⟨97, 123, .st 39⟩,
     ⟨125, 126, .st 39⟩],
    [⟨33, 33, .st 39⟩, ⟨36, 36, .st 39⟩, ⟨37, 37, .st 40⟩,
     ⟨38, 46, .st 39⟩, ⟨48, 59, .st 39⟩, ⟨61, 61, .st 39⟩,
     ⟨64, 64, .st 42⟩, ⟨65, 90, .st 39⟩, ⟨94, 95, .st 39⟩,
     ⟨97, 123, .st 39⟩, ⟨125, 126, .st 39⟩],
    -- st40
    [⟨48, 57, .st 41⟩, ⟨65, 70, .st 41⟩, ⟨97, 102, .st 41⟩],
    [⟨48, 57, .st 39⟩, ⟨65, 70, .st 39⟩, ⟨97, 102, .st 39⟩],
    [⟨32, 32, .tr 37⟩, ⟨33, 33, .st 43⟩, ⟨35, 35, .tr 39⟩,
     ⟨36, 36, .st 43⟩, ⟨37, 37, .st 44⟩, ⟨38, 46, .st 43⟩,
     ⟨47, 47, .st 26⟩, ⟨48, 57, .st 43⟩, ⟨58, 58, .st 46⟩,
     ⟨59, 59, .st 43⟩, ⟨61, 61, .st 43⟩, ⟨63, 63, .tr 42⟩,
     ⟨65, 90, .st 43⟩, ⟨91, 91, .st 47⟩, ⟨94, 95, .st 43⟩,
     ⟨97, 123, .st 43⟩, ⟨125, 126, .st 43⟩],
    [⟨32, 32, .tr 37⟩, ⟨33, 33, .st 43⟩, ⟨35, 35, .tr 39⟩,
     ⟨36, 36, .st 43⟩, ⟨37, 37, .st 44⟩, ⟨38, 46, .st 43⟩,
     ⟨47, 47, .st 26⟩, ⟨48, 57, .st 43⟩, ⟨58, 58, .st 46⟩,
     ⟨59, 59, .st 43⟩, ⟨61, 61, .st 43⟩, ⟨63, 63, .tr 42⟩,
     ⟨65, 90, .st 43⟩, ⟨94, 95, .st 43⟩, ⟨97, 123, .st 43⟩,
     ⟨125, 126, .st 43⟩],
    [⟨48, 57, .st 45⟩, ⟨65, 70, .st 45⟩, ⟨97, 102, .st 45⟩],
    [⟨48, 57, .st 43⟩, ⟨65, 70, .st 43⟩, ⟨97, 102, .st 43⟩],
    [⟨32, 32, .tr 37⟩, ⟨35, 35, .tr 39⟩, ⟨47, 47, .st 26⟩,
     ⟨48, 57, .st 46⟩, ⟨63, 63, .tr 42⟩],
    [⟨6, 6, .st 48⟩, ⟨48, 57, .st 91⟩, ⟨58, 58, .st 167⟩, ⟨65, 70, .st 91⟩,
     ⟨97, 102, .st 91⟩, ⟨118, 118, .st 169⟩],
    [⟨48, 57, .st 49⟩, ⟨65, 70, .st 49⟩, ⟨97, 102, .st 49⟩],
    [⟨48, 57, .st 50⟩, ⟨58, 58, .st 53⟩, ⟨65, 70, .st 50⟩,
     ⟨97, 102, .st 50⟩],
    -- st50
    [⟨48, 57, .st 51⟩, ⟨58, 58, .st 53⟩, ⟨65, 70, .st 51⟩,
     ⟨97, 102, .st 51⟩],
    [⟨48, 57, .st 52⟩, ⟨58, 58, .st 53⟩, ⟨65, 70, .st 52⟩,
     ⟨97, 102, .st 52⟩],
    [⟨58, 58, .st 53⟩],
    [⟨48, 48, .st 54⟩, ⟨49, 49, .st 84⟩, ⟨50, 50, .st 87⟩,
     ⟨51, 57, .st 54⟩, ⟨65, 70, .st 90⟩, ⟨97, 102, .st 90⟩],
    [⟨46, 46, .st 55⟩, ⟨48, 57, .st 77⟩, ⟨58, 58, .st 80⟩,
     ⟨65, 70, .st 77⟩, ⟨97, 102, .st 77⟩],
    [⟨48, 48, .st 56⟩, ⟨49, 49, .st 72⟩, ⟨50, 50, .st 74⟩,
     ⟨51, 57, .st 56⟩],
    [⟨46, 46, .st 57⟩],
    [⟨48, 48, .st 58⟩, ⟨49, 49, .st 67⟩, ⟨50, 50, .st 69⟩,
     ⟨51, 57, .st 58⟩],
    [⟨46, 46, .st 59⟩],
    [⟨48, 48, .st 60⟩, ⟨49, 49, .st 62⟩, ⟨50, 50, .st 64⟩,
     ⟨51, 57, .st 60⟩],
    -- st60
    [⟨93, 93, .st 61⟩],
    [⟨32, 32, .tr 37⟩, ⟨35, 35, .tr 39⟩, ⟨47, 47, .st 26⟩,
     ⟨58, 58, .st 46⟩, ⟨63, 63, .tr 42⟩],
    [⟨48, 57, .st 63⟩, ⟨93, 93, .st 61⟩],
    [⟨48, 57, .st 60⟩, ⟨93, 93, .st 61⟩],
    [⟨48, 48, .st 65⟩, ⟨53, 53, .st 66⟩, ⟨93, 93, .st 61⟩],
    [⟨48, 57, .st 60⟩],
    [⟨48, 48, .st 60⟩],
    [⟨46, 46, .st 59⟩, ⟨48, 57, .st 68⟩],
    [⟨46, 46, .st 59⟩, ⟨48, 57, .st 58⟩],
    [⟨46, 46, .st 59⟩, ⟨48, 48, .st 70⟩, ⟨53, 53, .st 71⟩],
    -- st70
    [⟨48, 57, .st 58⟩],
    [⟨48, 48, .st 58⟩],
    [⟨46, 46, .st 57⟩, ⟨48, 57, .st 73⟩],
    [⟨46, 46, .st 57⟩, ⟨48, 57, .st 56⟩],
    [⟨46, 46, .st 57⟩, ⟨48, 48, .st 75⟩, ⟨53, 53, .st 76⟩],
    [⟨48, 57, .st 56⟩],
    [⟨48, 48, .st 56⟩],
    [⟨48, 57, .st 78⟩, ⟨58, 58, .st 80⟩, ⟨65, 70, .st 78⟩,
     ⟨97, 102, .st 78⟩],
    [⟨48, 57, .st 79⟩, ⟨58, 58, .st 80⟩, ⟨65, 70, .st 79⟩,
     ⟨97, 102, .st 79⟩],
    [⟨58, 58, .st 80⟩],
    -- st80
    [⟨48, 57, .st 81⟩, ⟨65, 70, .st 81⟩, ⟨97, 102, .st 81⟩],
    [⟨48, 57, .st 82⟩, ⟨65, 70, .st 82⟩, ⟨93, 93, .st 61⟩,
     ⟨97, 102, .st 82⟩],
    [⟨48, 57, .st 83⟩, ⟨65, 70, .st 83⟩, ⟨93, 93, .st 61⟩,
     ⟨97, 102, .st 83⟩],
    [⟨48, 57, .st 60⟩, ⟨65, 70, .st 60⟩, ⟨93, 93, .st 61⟩,
     ⟨97, 102, .st 60⟩],
    [⟨46, 46, .st 55⟩, ⟨48, 57, .st 85⟩, ⟨58, 58, .st 80⟩,
     ⟨65, 70, .st 77⟩, ⟨97, 102, .st 77⟩],
    [⟨46, 46, .st 55⟩, ⟨48, 57, .st 86⟩, ⟨58, 58, .st 80⟩,
     ⟨65, 70, .st 78⟩, ⟨97, 102, .st 78⟩],
    [⟨46, 46, .st 55⟩, ⟨48, 57, .st 79⟩, ⟨58, 58, .st 80⟩,
     ⟨65, 70, .st 79⟩, ⟨97, 102, .st 79⟩],
    [⟨46, 46, .st 55⟩, ⟨48, 48, .st 88⟩, ⟨49, 52, .st 77⟩,
     ⟨53, 53, .st 89⟩, ⟨54, 57, .st 77⟩, ⟨58, 58, .st 80⟩,
     ⟨65, 70, .st 77⟩, ⟨97, 102, .st 77⟩],
    [⟨48, 57, .st 86⟩, ⟨58, 58, .st 80⟩, ⟨65, 70, .st 78⟩,
     ⟨97, 102, .st 78⟩],
    [⟨48, 48, .st 86⟩, ⟨49, 57, .st 78⟩, ⟨58, 58, .st 80⟩,
     ⟨65, 70, .st 78⟩, ⟨97, 102, .st 78⟩],
    -- st90
    [⟨48, 57, .st 77⟩, ⟨58, 58, .st 80⟩, ⟨65, 70, .st 77⟩,
     ⟨97, 102, .st 77⟩],
    [⟨48, 57, .st 92⟩, ⟨58, 58, .st 95⟩, ⟨65, 70, .st 92⟩,
     ⟨97, 102, .st 92⟩],
    [⟨48, 57, .st 93⟩, ⟨58, 58, .st 95⟩, ⟨65, 70, .st 93⟩,
     ⟨97, 102, .st 93⟩],
    [⟨48, 57, .st 94⟩, ⟨58, 58, .st 95⟩, ⟨65, 70, .st 94⟩,
     ⟨97, 102, .st 94⟩],
    [⟨58, 58, .st 95⟩],
    [⟨48, 57, .st 96⟩, ⟨58, 58, .st 166⟩, ⟨65, 70, .st 96⟩,
     ⟨97, 102, .st 96⟩],
    [⟨48, 57, .st 97⟩, ⟨58, 58, .st 100⟩, ⟨65, 70, .st 97⟩,
     ⟨97, 102, .st 97⟩],
    [⟨48, 57, .st 98⟩, ⟨58, 58, .st 100⟩, ⟨65, 70, .st 98⟩,
     ⟨97, 102, .st 98⟩],
    [⟨48, 57, .st 99⟩, ⟨58, 58, .st 100⟩, ⟨65, 70, .st 99⟩,
     ⟨97, 102, .st 99⟩],
    [⟨58, 58, .st 100⟩],
    -- st100
    [⟨48, 57, .st 101⟩, ⟨58, 58, .st 165⟩, ⟨65, 70, .st 101⟩,
     ⟨97, 102, .st 101⟩],
    [⟨48, 57, .st 102⟩, ⟨58, 58, .st 105⟩, ⟨65, 70, .st 102⟩,
     ⟨97, 102, .st 102⟩],
    [⟨48, 57, .st 103⟩, ⟨58, 58, .st 105⟩, ⟨65, 70, .st 103⟩,
     ⟨97, 102, .st 103⟩],
    [⟨48, 57, .st 104⟩, ⟨58, 58, .st 105⟩, ⟨65, 70, .st 104⟩,
     ⟨97, 102, .st 104⟩],
    [⟨58, 58, .st 105⟩],
    [⟨48, 57, .st 106⟩, ⟨58, 58, .st 164⟩, ⟨65, 70, .st 106⟩,
     ⟨97, 102, .st 106⟩],
    [⟨48, 57, .st 107⟩, ⟨58, 58, .st 110⟩, ⟨65, 70, .st 107⟩,
     ⟨97, 102, .st 107⟩],
    [⟨48, 57, .st 108⟩, ⟨58, 58, .st 110⟩, ⟨65, 70, .st 108⟩,
     ⟨97, 102, .st 108⟩],
    [⟨48, 57, .st 109⟩, ⟨58, 58, .st 110⟩, ⟨65, 70, .st 109⟩,
     ⟨97, 102, .st 109⟩],
    [⟨58, 58, .st 110⟩],
    -- st110
    [⟨48, 57, .st 111⟩, ⟨58, 58, .st 163⟩, ⟨65, 70, .st 111⟩,
     ⟨97, 102, .st 111⟩],
    [⟨48, 57, .st 112⟩, ⟨58, 58, .st 115⟩, ⟨65, 70, .st 112⟩,
     ⟨97, 102, .st 112⟩],
    [⟨48, 57, .st 113⟩, ⟨58, 58, .st 115⟩, ⟨65, 70, .st 113⟩,
     ⟨97, 102, .st 113⟩],
    [⟨48, 57, .st 114⟩, ⟨58, 58, .st 115⟩, ⟨65, 70, .st 114⟩,
     ⟨97, 102, .st 114⟩],
    [⟨58, 58, .st 115⟩],
    [⟨48, 57, .st 116⟩, ⟨58, 58, .st 151⟩, ⟨65, 70, .st 116⟩,
     ⟨97, 102, .st 116⟩],
    [⟨48, 57, .st 117⟩, ⟨58, 58, .st 120⟩, ⟨65, 70, .st 117⟩,
     ⟨97, 102, .st 117⟩],
    [⟨48, 57, .st 118⟩, ⟨58, 58, .st 120⟩, ⟨65, 70, .st 118⟩,
     ⟨97, 102, .st 118⟩],
    [⟨48, 57, .st 119⟩, ⟨58, 58, .st 120⟩, ⟨65, 70, .st 119⟩,
     ⟨97, 102, .st 119⟩],
    [⟨58, 58, .st 120⟩],
    -- st120
    [⟨48, 57, .st 121⟩, ⟨58, 58, .st 150⟩, ⟨65, 70, .st 121⟩,
     ⟨97, 102, .st 121⟩],
    [⟨48, 57, .st 122⟩, ⟨58, 58, .st 125⟩, ⟨65, 70, .st 122⟩,
     ⟨97, 102, .st 122⟩],
    [⟨48, 57, .st 123⟩, ⟨58, 58, .st 125⟩, ⟨65, 70, .st 123⟩,
     ⟨97, 102, .st 123⟩],
    [⟨48, 57, .st 124⟩, ⟨58, 58, .st 125⟩, ⟨65, 70, .st 124⟩,
     ⟨97, 102, .st 124⟩],
    [⟨58, 58, .st 125⟩],
    [⟨48, 57, .st 121⟩, ⟨58, 58, .st 126⟩, ⟨65, 70, .st 121⟩,
     ⟨97, 102, .st 121⟩],
    [⟨2, 3, .st 48⟩, ⟨48, 48, .st 127⟩, ⟨49, 49, .st 143⟩,
     ⟨50, 50, .st 146⟩, ⟨51, 57, .st 127⟩, ⟨65, 70, .st 149⟩,
     ⟨93, 93, .st 61⟩, ⟨97, 102, .st 149⟩],
    [⟨46, 46, .st 55⟩, ⟨48, 57, .st 128⟩, ⟨58, 58, .st 131⟩,
     ⟨65, 70, .st 128⟩, ⟨93, 93, .st 61⟩, ⟨97, 102, .st 128⟩],
    [⟨48, 57, .st 129⟩, ⟨58, 58, .st 131⟩, ⟨65, 70, .st 129⟩,
     ⟨93, 93, .st 61⟩, ⟨97, 102, .st 129⟩],
    [⟨48, 57, .st 130⟩, ⟨58, 58, .st 131⟩, ⟨65, 70, .st 130⟩,
     ⟨93, 93, .st 61⟩, ⟨97, 102, .st 130⟩],
    -- st130
    [⟨58, 58, .st 131⟩, ⟨93, 93, .st 61⟩],
    [⟨48, 48, .st 132⟩, ⟨49, 49, .st 136⟩, ⟨50, 50, .st 139⟩,
     ⟨51, 57, .st 132⟩, ⟨65, 70, .st 142⟩, ⟨97, 102, .st 142⟩],
    [⟨46, 46, .st 55⟩, ⟨48, 57, .st 133⟩, ⟨58, 58, .st 80⟩,
     ⟨65, 70, .st 133⟩, ⟨93, 93, .st 61⟩, ⟨97, 102, .st 133⟩],
    [⟨48, 57, .st 134⟩, ⟨58, 58, .st 80⟩, ⟨65, 70, .st 134⟩,
     ⟨93, 93, .st 61⟩, ⟨97, 102, .st 134⟩],
    [⟨48, 57, .st 135⟩, ⟨58, 58, .st 80⟩, ⟨65, 70, .st 135⟩,
     ⟨93, 93, .st 61⟩, ⟨97, 102, .st 135⟩],
    [⟨58, 58, .st 80⟩, ⟨93, 93, .st 61⟩],
    [⟨46, 46, .st 55⟩, ⟨48, 57, .st 137⟩, ⟨58, 58, .st 80⟩,
     ⟨65, 70, .st 133⟩, ⟨93, 93, .st 61⟩, ⟨97, 102, .st 133⟩],
    [⟨46, 46, .st 55⟩, ⟨48, 57, .st 138⟩, ⟨58, 58, .st 80⟩,
     ⟨65, 70, .st 134⟩, ⟨93, 93, .st 61⟩, ⟨97, 102, .st 134⟩],
    [⟨46, 46, .st 55⟩, ⟨48, 57, .st 135⟩, ⟨58, 58, .st 80⟩,
     ⟨65, 70, .st 135⟩, ⟨93, 93, .st 61⟩, ⟨97, 102, .st 135⟩],
    [⟨46, 46, .st 55⟩, ⟨48, 48, .st 140⟩, ⟨49, 52, .st 133⟩,
     ⟨53, 53, .st 141⟩, ⟨54, 57, .st 133⟩, ⟨58, 58, .st 80⟩,
     ⟨65, 70, .st 133⟩, ⟨93, 93, .st 61⟩, ⟨97, 102, .st 133⟩],
    -- st140
    [⟨48, 57, .st 138⟩, ⟨58, 58, .st 80⟩, ⟨65, 70, .st 134⟩,
     ⟨93, 93, .st 61⟩, ⟨97, 102, .st 134⟩],
    [⟨48, 48, .st 138⟩, ⟨49, 57, .st 134⟩, ⟨58, 58, .st 80⟩,
     ⟨65, 70, .st 134⟩, ⟨93, 93, .st 61⟩, ⟨97, 102, .st 134⟩],
    [⟨48, 57, .st 133⟩, ⟨58, 58, .st 80⟩, ⟨65, 70, .st 133⟩,
     ⟨93, 93, .st 61⟩, ⟨97, 102, .st 133⟩],
    [⟨46, 46, .st 55⟩, ⟨48, 57, .st 144⟩, ⟨58, 58, .st 131⟩,
     ⟨65, 70, .st 128⟩, ⟨93, 93, .st 61⟩, ⟨97, 102, .st 128⟩],
    [⟨46, 46, .st 55⟩, ⟨48, 57, .st 145⟩, ⟨58, 58, .st 131⟩,
     ⟨65, 70, .st 129⟩, ⟨93, 93, .st 61⟩, ⟨97, 102, .st 129⟩],
    [⟨46, 46, .st 55⟩, ⟨48, 57, .st 130⟩, ⟨58, 58, .st 131⟩,
     ⟨65, 70, .st 130⟩, ⟨93, 93, .st 61⟩, ⟨97, 102, .st 130⟩],
    [⟨46, 46, .st 55⟩, ⟨48, 48, .st 147⟩, ⟨49, 52, .st 128⟩,
     ⟨53, 53, .st 148⟩, ⟨54, 57, .st 128⟩, ⟨58, 58, .st 131⟩,
     ⟨65, 70, .st 128⟩, ⟨93, 93, .st 61⟩, ⟨97, 102, .st 128⟩],
    [⟨48, 57, .st 145⟩, ⟨58, 58, .st 131⟩, ⟨65, 70, .st 129⟩,
     ⟨93, 93, .st 61⟩, ⟨97, 102, .st 129⟩],
    [⟨48, 48, .st 145⟩, ⟨49, 57, .st 129⟩, ⟨58, 58, .st 131⟩,
     ⟨65, 70, .st 129⟩, ⟨93, 93, .st 61⟩, ⟨97, 102, .st 129⟩],
    [⟨48, 57, .st 128⟩, ⟨58, 58, .st 131⟩, ⟨65, 70, .st 128⟩,
     ⟨93, 93, .st 61⟩, ⟨97, 102, .st 128⟩],
    -- st150
    [⟨2, 3, .st 48⟩, ⟨48, 48, .st 127⟩, ⟨49, 49, .st 143⟩,
     ⟨50, 50, .st 146⟩, ⟨51, 57, .st 127⟩, ⟨65, 70, .st 149⟩,
     ⟨97, 102, .st 149⟩],
    [⟨2, 3, .st 48⟩, ⟨48, 48, .st 152⟩, ⟨49, 49, .st 156⟩,
     ⟨50, 50, .st 159⟩, ⟨51, 57, .st 152⟩, ⟨65, 70, .st 162⟩,
     ⟨97, 102, .st 162⟩],
    [⟨46, 46, .st 55⟩, ⟨48, 57, .st 153⟩, ⟨58, 58, .st 131⟩,
     ⟨65, 70, .st 153⟩, ⟨97, 102, .st 153⟩],
    [⟨48, 57, .st 154⟩, ⟨58, 58, .st 131⟩, ⟨65, 70, .st 154⟩,
     ⟨97, 102, .st 154⟩],
    [⟨48, 57, .st 155⟩, ⟨58, 58, .st 131⟩, ⟨65, 70, .st 155⟩,
     ⟨97, 102, .st 155⟩],
    [⟨58, 58, .st 131⟩],
    [⟨46, 46, .st 55⟩, ⟨48, 57, .st 157⟩, ⟨58, 58, .st 131⟩,
     ⟨65, 70, .st 153⟩, ⟨97, 102, .st 153⟩],
    [⟨46, 46, .st 55⟩, ⟨48, 57, .st 158⟩, ⟨58, 58, .st 131⟩,
     ⟨65, 70, .st 154⟩, ⟨97, 102, .st 154⟩],
    [⟨46, 46, .st 55⟩, ⟨48, 57, .st 155⟩, ⟨58, 58, .st 131⟩,
     ⟨65, 70, .st 155⟩, ⟨97, 102, .st 155⟩],
    [⟨46, 46, .st 55⟩, ⟨48, 48, .st 160⟩, ⟨49, 52, .st 153⟩,
     ⟨53, 53, .st 161⟩, ⟨54, 57, .st 153⟩, ⟨58, 58, .st 131⟩,
     ⟨65, 70, .st 153⟩, ⟨97, 102, .st 153⟩],
    -- st160
    [⟨48, 57, .st 158⟩, ⟨58, 58, .st 131⟩, ⟨65, 70, .st 154⟩,
     ⟨97, 102, .st 154⟩],
    [⟨48, 48, .st 158⟩, ⟨49, 57, .st 154⟩, ⟨58, 58, .st 131⟩,
     ⟨65, 70, .st 154⟩, ⟨97, 102, .st 154⟩],
    [⟨48, 57, .st 153⟩, ⟨58, 58, .st 131⟩, ⟨65, 70, .st 153⟩,
     ⟨97, 102, .st 153⟩],
    [⟨2, 3, .st 48⟩, ⟨48, 57, .st 49⟩, ⟨65, 70, .st 49⟩, ⟨97, 102, .st 49⟩],
    [⟨2, 3, .st 48⟩],
    [⟨3, 3, .st 48⟩],
    [⟨4, 4, .st 48⟩],
    [⟨58, 58, .st 168⟩],
    [⟨2, 5, .st 48⟩, ⟨48, 48, .st 127⟩, ⟨49, 49, .st 143⟩,
     ⟨50, 50, .st 146⟩, ⟨51, 57, .st 127⟩, ⟨65, 70, .st 149⟩,
     ⟨93, 93, .st 61⟩, ⟨97, 102, .st 149⟩],
    [⟨48, 57, .st 170⟩, ⟨65, 70, .st 170⟩, ⟨97, 102, .st 170⟩],
    -- st170
    [⟨46, 46, .st 171⟩, ⟨48, 57, .st 170⟩, ⟨65, 70, .st 170⟩,
     ⟨97, 102, .st 170⟩],
    [⟨33, 33, .st 172⟩, ⟨36, 36, .st 172⟩, ⟨38, 46, .st 172⟩,
     ⟨48, 59, .st 172⟩, ⟨61, 61, .st 172⟩, ⟨65, 90, .st 172⟩,
     ⟨94, 95, .st 172⟩, ⟨97, 123, .st 172⟩, ⟨125, 126, .st 172⟩],
    [⟨33, 33, .st 172⟩, ⟨36, 36, .st 172⟩, ⟨38, 46, .st 172⟩,
     ⟨48, 59, .st 172⟩, ⟨61, 61, .st 172⟩, ⟨65, 90, .st 172⟩,
     ⟨93, 93, .st 61⟩, ⟨94, 95, .st 172⟩, ⟨97, 123, .st 172⟩,
     ⟨125, 126, .st 172⟩],
    [⟨32, 32, .tr 37⟩, ⟨33, 33, .st 19⟩, ⟨35, 35, .tr 39⟩,
     ⟨36, 36, .st 19⟩, ⟨37, 37, .st 24⟩, ⟨38, 42, .st 19⟩,
     ⟨43, 43, .st 173⟩, ⟨44, 44, .st 19⟩, ⟨45, 46, .st 173⟩,
     ⟨47, 47, .st 26⟩, ⟨48, 57, .st 173⟩, ⟨58, 58, .st 174⟩,
     ⟨59, 59, .st 19⟩, ⟨61, 61, .st 19⟩, ⟨63, 63, .tr 42⟩,
     ⟨64, 64, .st 19⟩, ⟨65, 90, .st 173⟩, ⟨94, 95, .st 19⟩,
     ⟨97, 122, .st 173⟩, ⟨123, 123, .st 19⟩, ⟨125, 126, .st 19⟩],
    [⟨32, 32, .tr 6⟩, ⟨33, 33, .tr 203⟩, ⟨35, 35, .tr 8⟩,
     ⟨36, 36, .tr 203⟩, ⟨37, 37, .tr 204⟩, ⟨38, 46, .tr 203⟩,
     ⟨47, 47, .tr 10⟩, ⟨48, 59, .tr 203⟩, ⟨61, 61, .tr 203⟩,
     ⟨63, 63, .tr 11⟩, ⟨64, 90, .tr 203⟩, ⟨94, 95, .tr 203⟩,
     ⟨97, 123, .tr 203⟩, ⟨125, 126, .tr 203⟩],
    [⟨32, 32, .tr 4⟩, ⟨48, 57, .st 176⟩, ⟨65, 90, .st 176⟩],
    [⟨32, 32, .tr 4⟩, ⟨48, 57, .st 177⟩, ⟨65, 90, .st 177⟩],
    [⟨32, 32, .tr 4⟩, ⟨48, 57, .st 178⟩, ⟨65, 90, .st 178⟩],
    [⟨32, 32, .tr 4⟩, ⟨48, 57, .st 179⟩, ⟨65, 90, .st 179⟩],
    [⟨32, 32, .tr 4⟩, ⟨48, 57, .st 180⟩, ⟨65, 90, .st 180⟩],
    -- st180
    [⟨32, 32, .tr 4⟩, ⟨48, 57, .st 181⟩, ⟨65, 90, .st 181⟩],
    [⟨32, 32, .tr 4⟩, ⟨48, 57, .st 182⟩, ⟨65, 90, .st 182⟩],
    [⟨32, 32, .tr 4⟩, ⟨48, 57, .st 183⟩, ⟨65, 90, .st 183⟩],
    [⟨32, 32, .tr 4⟩, ⟨48, 57, .st 184⟩, ⟨65, 90, .st 184⟩],
    [⟨32, 32, .tr 4⟩, ⟨48, 57, .st 185⟩, ⟨65, 90, .st 185⟩],
    [⟨32, 32, .tr 4⟩, ⟨48, 57, .st 186⟩, ⟨65, 90, .st 186⟩],
    [⟨32, 32, .tr 4⟩, ⟨48, 57, .st 187⟩, ⟨65, 90, .st 187⟩],
    [⟨32, 32, .tr 4⟩, ⟨48, 57, .st 188⟩, ⟨65, 90, .st 188⟩],
    [⟨32, 32, .tr 4⟩, ⟨48, 57, .st 189⟩, ⟨65, 90, .st 189⟩],
    [⟨32, 32, .tr 4⟩, ⟨48, 57, .st 190⟩, ⟨65, 90, .st 190⟩],
    -- st190
    [⟨32, 32, .tr 4⟩, ⟨48, 57, .st 191⟩, ⟨65, 90, .st 191⟩],
    [⟨32, 32, .tr 4⟩, ⟨48, 57, .st 192⟩, ⟨65, 90, .st 192⟩],
    [⟨32, 32, .tr 4⟩, ⟨48, 57, .st 193⟩, ⟨65, 90, .st 193⟩],
    [⟨32, 32, .tr 4⟩],
    [⟨45, 46, .st 195⟩, ⟨48, 57, .st 195⟩, ⟨65, 90, .st 195⟩,
     ⟨97, 122, .st 195⟩],
    [⟨9, 13, .tr 224⟩, ⟨32, 32, .tr 224⟩, ⟨45, 46, .st 195⟩,
     ⟨47, 47, .tr 224⟩, ⟨48, 57, .st 195⟩, ⟨62, 62, .tr 224⟩,
     ⟨65, 90, .st 195⟩, ⟨97, 122, .st 195⟩],
    [⟨0, 61, .st 196⟩, ⟨62, 62, .st 197⟩, ⟨63, 255, .st 196⟩],
    [⟨0, 0, .tr 227⟩, ⟨1, 61, .st 196⟩, ⟨62, 62, .st 197⟩,
     ⟨63, 255, .st 196⟩],
    [⟨32, 32, .tr 228⟩, ⟨33, 33, .st 202⟩, ⟨36, 36, .st 202⟩,
     ⟨37, 37, .st 203⟩, ⟨38, 46, .st 202⟩, ⟨47, 47, .st 208⟩,
     ⟨48, 57, .st 202⟩, ⟨59, 59, .st 202⟩, ⟨61, 61, .st 202⟩,
     ⟨64, 90, .st 202⟩, ⟨94, 95, .st 202⟩, ⟨97, 123, .st 202⟩,
     ⟨125, 126, .st 202⟩],
    [⟨123, 123, .tr 232⟩],
    -- st200
    [⟨0, 124, .st 200⟩, ⟨125, 125, .st 201⟩, ⟨126, 255, .st 200⟩],
    [⟨0, 0, .tr 235⟩, ⟨1, 124, .st 200⟩, ⟨125, 125, .st 201⟩,
     ⟨126, 255, .st 200⟩],
    [⟨32, 32, .tr 228⟩, ⟨33, 33, .st 202⟩, ⟨36, 36, .st 202⟩,
     ⟨37, 37, .st 203⟩, ⟨38, 46, .st 202⟩, ⟨47, 47, .st 205⟩,
     ⟨48, 57, .st 202⟩, ⟨59, 59, .st 202⟩, ⟨61, 61, .st 202⟩,
     ⟨64, 90, .st 202⟩, ⟨94, 95, .st 202⟩, ⟨97, 123, .st 202⟩,
     ⟨125, 126, .st 202⟩],
    [⟨48, 57, .st 204⟩, ⟨65, 70, .st 204⟩, ⟨97, 102, .st 204⟩],
    [⟨48, 57, .st 202⟩, ⟨65, 70, .st 202⟩, ⟨97, 102, .st 202⟩],
    [⟨32, 32, .tr 228⟩, ⟨33, 33, .st 205⟩, ⟨36, 36, .st 205⟩,
     ⟨37, 37, .st 206⟩, ⟨38, 59, .st 205⟩, ⟨61, 61, .st 205⟩,
     ⟨64, 90, .st 205⟩, ⟨94, 95, .st 205⟩, ⟨97, 123, .st 205⟩,
     ⟨125, 126, .st 205⟩],
    [⟨48, 57, .st 207⟩, ⟨65, 70, .st 207⟩, ⟨97, 102, .st 207⟩],
    [⟨48, 57, .st 205⟩, ⟨65, 70, .st 205⟩, ⟨97, 102, .st 205⟩],
    [⟨32, 32, .tr 228⟩, ⟨33, 33, .st 205⟩, ⟨36, 36, .st 205⟩,
     ⟨37, 37, .st 206⟩, ⟨38, 46, .st 205⟩, ⟨47, 47, .st 209⟩,
     ⟨48, 59, .st 205⟩, ⟨61, 61, .st 205⟩, ⟨64, 90, .st 205⟩,
     ⟨94, 95, .st 205⟩, ⟨97, 123, .st 205⟩, ⟨125, 126, .st 205⟩],
    [⟨32, 32, .tr 228⟩, ⟨33, 33, .st 210⟩, ⟨36, 36, .st 210⟩,
     ⟨37, 37, .st 211⟩, ⟨38, 46, .st 210⟩, ⟨47, 47, .st 205⟩,
     ⟨48, 57, .st 210⟩, ⟨58, 58, .st 213⟩, ⟨59, 59, .st 210⟩,
     ⟨61, 61, .st 210⟩, ⟨64, 64, .st 217⟩, ⟨65, 90, .st 210⟩,
     ⟨91, 91, .st 222⟩, ⟨94, 95, .st 210⟩, ⟨97, 123, .st 210⟩,
     ⟨125, 126, .st 210⟩],
    -- st210
    [⟨32, 32, .tr 228⟩, ⟨33, 33, .st 210⟩, ⟨36, 36, .st 210⟩,
     ⟨37, 37, .st 211⟩, ⟨38, 46, .st 210⟩, ⟨47, 47, .st 205⟩,
     ⟨48, 57, .st 210⟩, ⟨58, 58, .st 213⟩, ⟨59, 59, .st 210⟩,
     ⟨61, 61, .st 210⟩, ⟨64, 64, .st 217⟩, ⟨65, 90, .st 210⟩,
     ⟨94, 95, .st 210⟩, ⟨97, 123, .st 210⟩, ⟨125, 126, .st 210⟩],
    [⟨48, 57, .st 212⟩, ⟨65, 70, .st 212⟩, ⟨97, 102, .st 212⟩],
    [⟨48, 57, .st 210⟩, ⟨65, 70, .st 210⟩, ⟨97, 102, .st 210⟩],
    [⟨32, 32, .tr 228⟩, ⟨33, 33, .st 214⟩, ⟨36, 36, .st 214⟩,
     ⟨37, 37, .st 215⟩, ⟨38, 46, .st 214⟩, ⟨47, 47, .st 205⟩,
     ⟨48, 57, .st 213⟩, ⟨58, 59, .st 214⟩, ⟨61, 61, .st 214⟩,
     ⟨64, 64, .st 217⟩, ⟨65, 90, .st 214⟩, ⟨94, 95, .st 214⟩,
     ⟨97, 123, .st 214⟩, ⟨125, 126, .st 214⟩],
    [⟨33, 33, .st 214⟩, ⟨36, 36, .st 214⟩, ⟨37, 37, .st 215⟩,
     ⟨38, 46, .st 214⟩, ⟨48, 59, .st 214⟩, ⟨61, 61, .st 214⟩,
     ⟨64, 64, .st 217⟩, ⟨65, 90, .st 214⟩, ⟨94, 95, .st 214⟩,
     ⟨97, 123, .st 214⟩, ⟨125, 126, .st 214⟩],
    [⟨48, 57, .st 216⟩, ⟨65, 70, .st 216⟩, ⟨97, 102, .st 216⟩],
    [⟨48, 57, .st 214⟩, ⟨65, 70, .st 214⟩, ⟨97, 102, .st 214⟩],
    [⟨32, 32, .tr 228⟩, ⟨33, 33, .st 218⟩, ⟨36, 36, .st 218⟩,
     ⟨37, 37, .st 219⟩, ⟨38, 46, .st 218⟩, ⟨47, 47, .st 205⟩,
     ⟨48, 57, .st 218⟩, ⟨58, 58, .st 221⟩, ⟨59, 59, .st 218⟩,
     ⟨61, 61, .st 218⟩, ⟨65, 90, .st 218⟩, ⟨91, 91, .st 222⟩,
     ⟨94, 95, .st 218⟩, ⟨97, 123, .st 218⟩, ⟨125, 126, .st 218⟩],
    [⟨32, 32, .tr 228⟩, ⟨33, 33, .st 218⟩, ⟨36, 36, .st 218⟩,
     ⟨37, 37, .st 219⟩, ⟨38, 46, .st 218⟩, ⟨47, 47, .st 205⟩,
     ⟨48, 57, .st 218⟩, ⟨58, 58, .st 221⟩, ⟨59, 59, .st 218⟩,
     ⟨61, 61, .st 218⟩, ⟨65, 90, .st 218⟩, ⟨94, 95, .st 218⟩,
     ⟨97, 123, .st 218⟩, ⟨125, 126, .st 218⟩],
    [⟨48, 57, .st 220⟩, ⟨65, 70, .st 220⟩, ⟨97, 102, .st 220⟩],
    -- st220
    [⟨48, 57, .st 218⟩, ⟨65, 70, .st 218⟩, ⟨97, 102, .st 218⟩],
    [⟨32, 32, .tr 228⟩, ⟨47, 47, .st 205⟩, ⟨48, 57, .st 221⟩],
    [⟨6, 6, .st 223⟩, ⟨48, 57, .st 266⟩, ⟨58, 58, .st 342⟩,
     ⟨65, 70, .st 266⟩, ⟨97, 102, .st 266⟩, ⟨118, 118, .st 344⟩],
    [⟨48, 57, .st 224⟩, ⟨65, 70, .st 224⟩, ⟨97, 102, .st 224⟩],
    [⟨48, 57, .st 225⟩, ⟨58, 58, .st 228⟩, ⟨65, 70, .st 225⟩,
     ⟨97, 102, .st 225⟩],
    [⟨48, 57, .st 226⟩, ⟨58, 58, .st 228⟩, ⟨65, 70, .st 226⟩,
     ⟨97, 102, .st 226⟩],
    [⟨48, 57, .st 227⟩, ⟨58, 58, .st 228⟩, ⟨65, 70, .st 227⟩,
     ⟨97, 102, .st 227⟩],
    [⟨58, 58, .st 228⟩],
    [⟨48, 48, .st 229⟩, ⟨49, 49, .st 259⟩, ⟨50, 50, .st 262⟩,
     ⟨51, 57, .st 229⟩, ⟨65, 70, .st 265⟩, ⟨97, 102, .st 265⟩],
    [⟨46, 46, .st 230⟩, ⟨48, 57, .st 252⟩, ⟨58, 58, .st 255⟩,
     ⟨65, 70, .st 252⟩, ⟨97, 102, .st 252⟩],
    -- st230
    [⟨48, 48, .st 231⟩, ⟨49, 49, .st 247⟩, ⟨50, 50, .st 249⟩,
     ⟨51, 57, .st 231⟩],
    [⟨46, 46, .st 232⟩],
    [⟨48, 48, .st 233⟩, ⟨49, 49, .st 242⟩, ⟨50, 50, .st 244⟩,
     ⟨51, 57, .st 233⟩],
    [⟨46, 46, .st 234⟩],
    [⟨48, 48, .st 235⟩, ⟨49, 49, .st 237⟩, ⟨50, 50, .st 239⟩,
     ⟨51, 57, .st 235⟩],
    [⟨93, 93, .st 236⟩],
    [⟨32, 32, .tr 228⟩, ⟨47, 47, .st 205⟩, ⟨58, 58, .st 221⟩],
    [⟨48, 57, .st 238⟩, ⟨93, 93, .st 236⟩],
    [⟨48, 57, .st 235⟩, ⟨93, 93, .st 236⟩],
    [⟨48, 48, .st 240⟩, ⟨53, 53, .st 241⟩, ⟨93, 93, .st 236⟩],
    -- st240
    [⟨48, 57, .st 235⟩],
    [⟨48, 48, .st 235⟩],
    [⟨46, 46, .st 234⟩, ⟨48, 57, .st 243⟩],
    [⟨46, 46, .st 234⟩, ⟨48, 57, .st 233⟩],
    [⟨46, 46, .st 234⟩, ⟨48, 48, .st 245⟩, ⟨53, 53, .st 246⟩],
    [⟨48, 57, .st 233⟩],
    [⟨48, 48, .st 233⟩],
    [⟨46, 46, .st 232⟩, ⟨48, 57, .st 248⟩],
    [⟨46, 46, .st 232⟩, ⟨48, 57, .st 231⟩],
    [⟨46, 46, .st 232⟩, ⟨48, 48, .st 250⟩, ⟨53, 53, .st 251⟩],
    -- st250
    [⟨48, 57, .st 231⟩],
    [⟨48, 48, .st 231⟩],
    [⟨48, 57, .st 253⟩, ⟨58, 58, .st 255⟩, ⟨65, 70, .st 253⟩,
     ⟨97, 102, .st 253⟩],
    [⟨48, 57, .st 254⟩, ⟨58, 58, .st 255⟩, ⟨65, 70, .st 254⟩,
     ⟨97, 102, .st 254⟩],
    [⟨58, 58, .st 255⟩],
    [⟨48, 57, .st 256⟩, ⟨65, 70, .st 256⟩, ⟨97, 102, .st 256⟩],
    [⟨48, 57, .st 257⟩, ⟨65, 70, .st 257⟩, ⟨93, 93, .st 236⟩,
     ⟨97, 102, .st 257⟩],
    [⟨48, 57, .st 258⟩, ⟨65, 70, .st 258⟩, ⟨93, 93, .st 236⟩,
     ⟨97, 102, .st 258⟩],
    [⟨48, 57, .st 235⟩, ⟨65, 70, .st 235⟩, ⟨93, 93, .st 236⟩,
     ⟨97, 102, .st 235⟩],
    [⟨46, 46, .st 230⟩, ⟨48, 57, .st 260⟩, ⟨58, 58, .st 255⟩,
     ⟨65, 70, .st 252⟩, ⟨97, 102, .st 252⟩],
    -- st260
    [⟨46, 46, .st 230⟩, ⟨48, 57, .st 261⟩, ⟨58, 58, .st 255⟩,
     ⟨65, 70, .st 253⟩, ⟨97, 102, .st 253⟩],
    [⟨46, 46, .st 230⟩, ⟨48, 57, .st 254⟩, ⟨58, 58, .st 255⟩,
     ⟨65, 70, .st 254⟩, ⟨97, 102, .st 254⟩],
    [⟨46, 46, .st 230⟩, ⟨48, 48, .st 263⟩, ⟨49, 52, .st 252⟩,
     ⟨53, 53, .st 264⟩, ⟨54, 57, .st 252⟩, ⟨58, 58, .st 255⟩,
     ⟨65, 70, .st 252⟩, ⟨97, 102, .st 252⟩],
    [⟨48, 57, .st 261⟩, ⟨58, 58, .st 255⟩, ⟨65, 70, .st 253⟩,
     ⟨97, 102, .st 253⟩],
    [⟨48, 48, .st 261⟩, ⟨49, 57, .st 253⟩, ⟨58, 58, .st 255⟩,
     ⟨65, 70, .st 253⟩, ⟨97, 102, .st 253⟩],
    [⟨48, 57, .st 252⟩, ⟨58, 58, .st 255⟩, ⟨65, 70, .st 252⟩,
     ⟨97, 102, .st 252⟩],
    [⟨48, 57, .st 267⟩, ⟨58, 58, .st 270⟩, ⟨65, 70, .st 267⟩,
     ⟨97, 102, .st 267⟩],
    [⟨48, 57, .st 268⟩, ⟨58, 58, .st 270⟩, ⟨65, 70, .st 268⟩,
     ⟨97, 102, .st 268⟩],
    [⟨48, 57, .st 269⟩, ⟨58, 58, .st 270⟩, ⟨65, 70, .st 269⟩,
     ⟨97, 102, .st 269⟩],
    [⟨58, 58, .st 270⟩],
    -- st270
    [⟨48, 57, .st 271⟩, ⟨58, 58, .st 341⟩, ⟨65, 70, .st 271⟩,
     ⟨97, 102, .st 271⟩],
    [⟨48, 57, .st 272⟩, ⟨58, 58, .st 275⟩, ⟨65, 70, .st 272⟩,
     ⟨97, 102, .st 272⟩],
    [⟨48, 57, .st 273⟩, ⟨58, 58, .st 275⟩, ⟨65, 70, .st 273⟩,
     ⟨97, 102, .st 273⟩],
    [⟨48, 57, .st 274⟩, ⟨58, 58, .st 275⟩, ⟨65, 70, .st 274⟩,
     ⟨97, 102, .st 274⟩],
    [⟨58, 58, .st 275⟩],
    [⟨48, 57, .st 276⟩, ⟨58, 58, .st 340⟩, ⟨65, 70, .st 276⟩,
     ⟨97, 102, .st 276⟩],
    [⟨48, 57, .st 277⟩, ⟨58, 58, .st 280⟩, ⟨65, 70, .st 277⟩,
     ⟨97, 102, .st 277⟩],
    [⟨48, 57, .st 278⟩, ⟨58, 58, .st 280⟩, ⟨65, 70, .st 278⟩,
     ⟨97, 102, .st 278⟩],
    [⟨48, 57, .st 279⟩, ⟨58, 58, .st 280⟩, ⟨65, 70, .st 279⟩,
     ⟨97, 102, .st 279⟩],
    [⟨58, 58, .st 280⟩],
    -- st280
    [⟨48, 57, .st 281⟩, ⟨58, 58, .st 339⟩, ⟨65, 70, .st 281⟩,
     ⟨97, 102, .st 281⟩],
    [⟨48, 57, .st 282⟩, ⟨58, 58, .st 285⟩, ⟨65, 70, .st 282⟩,
     ⟨97, 102, .st 282⟩],
    [⟨48, 57, .st 283⟩, ⟨58, 58, .st 285⟩, ⟨65, 70, .st 283⟩,
     ⟨97, 102, .st 283⟩],
    [⟨48, 57, .st 284⟩, ⟨58, 58, .st 285⟩, ⟨65, 70, .st 284⟩,
     ⟨97, 102, .st 284⟩],
    [⟨58, 58, .st 285⟩],
    [⟨48, 57, .st 286⟩, ⟨58, 58, .st 338⟩, ⟨65, 70, .st 286⟩,
     ⟨97, 102, .st 286⟩],
    [⟨48, 57, .st 287⟩, ⟨58, 58, .st 290⟩, ⟨65, 70, .st 287⟩,
     ⟨97, 102, .st 287⟩],
    [⟨48, 57, .st 288⟩, ⟨58, 58, .st 290⟩, ⟨65, 70, .st 288⟩,
     ⟨97, 102, .st 288⟩],
    [⟨48, 57, .st 289⟩, ⟨58, 58, .st 290⟩, ⟨65, 70, .st 289⟩,
     ⟨97, 102, .st 289⟩],
    [⟨58, 58, .st 290⟩],
    -- st290
    [⟨48, 57, .st 291⟩, ⟨58, 58, .st 326⟩, ⟨65, 70, .st 291⟩,
     ⟨97, 102, .st 291⟩],
    [⟨48, 57, .st 292⟩, ⟨58, 58, .st 295⟩, ⟨65, 70, .st 292⟩,
     ⟨97, 102, .st 292⟩],
    [⟨48, 57, .st 293⟩, ⟨58, 58, .st 295⟩, ⟨65, 70, .st 293⟩,
     ⟨97, 102, .st 293⟩],
    [⟨48, 57, .st 294⟩, ⟨58, 58, .st 295⟩, ⟨65, 70, .st 294⟩,
     ⟨97, 102, .st 294⟩],
    [⟨58, 58, .st 295⟩],
    [⟨48, 57, .st 296⟩, ⟨58, 58, .st 325⟩, ⟨65, 70, .st 296⟩,
     ⟨97, 102, .st 296⟩],
    [⟨48, 57, .st 297⟩, ⟨58, 58, .st 300⟩, ⟨65, 70, .st 297⟩,
     ⟨97, 102, .st 297⟩],
    [⟨48, 57, .st 298⟩, ⟨58, 58, .st 300⟩, ⟨65, 70, .st 298⟩,
     ⟨97, 102, .st 298⟩],
    [⟨48, 57, .st 299⟩, ⟨58, 58, .st 300⟩, ⟨65, 70, .st 299⟩,
     ⟨97, 102, .st 299⟩],
    [⟨58, 58, .st 300⟩],
    -- st300
    [⟨48, 57, .st 296⟩, ⟨58, 58, .st 301⟩, ⟨65, 70, .st 296⟩,
     ⟨97, 102, .st 296⟩],
    [⟨2, 3, .st 223⟩, ⟨48, 48, .st 302⟩, ⟨49, 49, .st 318⟩,
     ⟨50, 50, .st 321⟩, ⟨51, 57, .st 302⟩, ⟨65, 70, .st 324⟩,
     ⟨93, 93, .st 236⟩, ⟨97, 102, .st 324⟩],
    [⟨46, 46, .st 230⟩, ⟨48, 57, .st 303⟩, ⟨58, 58, .st 306⟩,
     ⟨65, 70, .st 303⟩, ⟨93, 93, .st 236⟩, ⟨97, 102, .st 303⟩],
    [⟨48, 57, .st 304⟩, ⟨58, 58, .st 306⟩, ⟨65, 70, .st 304⟩,
     ⟨93, 93, .st 236⟩, ⟨97, 102, .st 304⟩],
    [⟨48, 57, .st 305⟩, ⟨58, 58, .st 306⟩, ⟨65, 70, .st 305⟩,
     ⟨93, 93, .st 236⟩, ⟨97, 102, .st 305⟩],
    [⟨58, 58, .st 306⟩, ⟨93, 93, .st 236⟩],
    [⟨48, 48, .st 307⟩, ⟨49, 49, .st 311⟩, ⟨50, 50, .st 314⟩,
     ⟨51, 57, .st 307⟩, ⟨65, 70, .st 317⟩, ⟨97, 102, .st 317⟩],
    [⟨46, 46, .st 230⟩, ⟨48, 57, .st 308⟩, ⟨58, 58, .st 255⟩,
     ⟨65, 70, .st 308⟩, ⟨93, 93, .st 236⟩, ⟨97, 102, .st 308⟩],
    [⟨48, 57, .st 309⟩, ⟨58, 58, .st 255⟩, ⟨65, 70, .st 309⟩,
     ⟨93, 93, .st 236⟩, ⟨97, 102, .st 309⟩],
    [⟨48, 57, .st 310⟩, ⟨58, 58, .st 255⟩, ⟨65, 70, .st 310⟩,
     ⟨93, 93, .st 236⟩, ⟨97, 102, .st 310⟩],
    -- st310
    [⟨58, 58, .st 255⟩, ⟨93, 93, .st 236⟩],
    [⟨46, 46, .st 230⟩, ⟨48, 57, .st 312⟩, ⟨58, 58, .st 255⟩,
     ⟨65, 70, .st 308⟩, ⟨93, 93, .st 236⟩, ⟨97, 102, .st 308⟩],
    [⟨46, 46, .st 230⟩, ⟨48, 57, .st 313⟩, ⟨58, 58, .st 255⟩,
     ⟨65, 70, .st 309⟩, ⟨93, 93, .st 236⟩, ⟨97, 102, .st 309⟩],
    [⟨46, 46, .st 230⟩, ⟨48, 57, .st 310⟩, ⟨58, 58, .st 255⟩,
     ⟨65, 70, .st 310⟩, ⟨93, 93, .st 236⟩, ⟨97, 102, .st 310⟩],
    [⟨46, 46, .st 230⟩, ⟨48, 48, .st 315⟩, ⟨49, 52, .st 308⟩,
     ⟨53, 53, .st 316⟩, ⟨54, 57, .st 308⟩, ⟨58, 58, .st 255⟩,
     ⟨65, 70, .st 308⟩, ⟨93, 93, .st 236⟩, ⟨97, 102, .st 308⟩],
    [⟨48, 57, .st 313⟩, ⟨58, 58, .st 255⟩, ⟨65, 70, .st 309⟩,
     ⟨93, 93, .st 236⟩, ⟨97, 102, .st 309⟩],
    [⟨48, 48, .st 313⟩, ⟨49, 57, .st 309⟩, ⟨58, 58, .st 255⟩,
     ⟨65, 70, .st 309⟩, ⟨93, 93, .st 236⟩, ⟨97, 102, .st 309⟩],
    [⟨48, 57, .st 308⟩, ⟨58, 58, .st 255⟩, ⟨65, 70, .st 308⟩,
     ⟨93, 93, .st 236⟩, ⟨97, 102, .st 308⟩],
    [⟨46, 46, .st 230⟩, ⟨48, 57, .st 319⟩, ⟨58, 58, .st 306⟩,
     ⟨65, 70, .st 303⟩, ⟨93, 93, .st 236⟩, ⟨97, 102, .st 303⟩],
    [⟨46, 46, .st 230⟩, ⟨48, 57, .st 320⟩, ⟨58, 58, .st 306⟩,
     ⟨65, 70, .st 304⟩, ⟨93, 93, .st 236⟩, ⟨97, 102, .st 304⟩],
    -- st320
    [⟨46, 46, .st 230⟩, ⟨48, 57, .st 305⟩, ⟨58, 58, .st 306⟩,
     ⟨65, 70, .st 305⟩, ⟨93, 93, .st 236⟩, ⟨97, 102, .st 305⟩],
    [⟨46, 46, .st 230⟩, ⟨48, 48, .st 322⟩, ⟨49, 52, .st 303⟩,
     ⟨53, 53, .st 323⟩, ⟨54, 57, .st 303⟩, ⟨58, 58, .st 306⟩,
     ⟨65, 70, .st 303⟩, ⟨93, 93, .st 236⟩, ⟨97, 102, .st 303⟩],
    [⟨48, 57, .st 320⟩, ⟨58, 58, .st 306⟩, ⟨65, 70, .st 304⟩,
     ⟨93, 93, .st 236⟩, ⟨97, 102, .st 304⟩],
    [⟨48, 48, .st 320⟩, ⟨49, 57, .st 304⟩, ⟨58, 58, .st 306⟩,
     ⟨65, 70, .st 304⟩, ⟨93, 93, .st 236⟩, ⟨97, 102, .st 304⟩],
    [⟨48, 57, .st 303⟩, ⟨58, 58, .st 306⟩, ⟨65, 70, .st 303⟩,
     ⟨93, 93, .st 236⟩, ⟨97, 102, .st 303⟩],
    [⟨2, 3, .st 223⟩, ⟨48, 48, .st 302⟩, ⟨49, 49, .st 318⟩,
     ⟨50, 50, .st 321⟩, ⟨51, 57, .st 302⟩, ⟨65, 70, .st 324⟩,
     ⟨97, 102, .st 324⟩],
    [⟨2, 3, .st 223⟩, ⟨48, 48, .st 327⟩, ⟨49, 49, .st 331⟩,
     ⟨50, 50, .st 334⟩, ⟨51, 57, .st 327⟩, ⟨65, 70, .st 337⟩,
     ⟨97, 102, .st 337⟩],
    [⟨46, 46, .st 230⟩, ⟨48, 57, .st 328⟩, ⟨58, 58, .st 306⟩,
     ⟨65, 70, .st 328⟩, ⟨97, 102, .st 328⟩],
    [⟨48, 57, .st 329⟩, ⟨58, 58, .st 306⟩, ⟨65, 70, .st 329⟩,
     ⟨97, 102, .st 329⟩],
    [⟨48, 57, .st 330⟩, ⟨58, 58, .st 306⟩, ⟨65, 70, .st 330⟩,
     ⟨97, 102, .st 330⟩],
    -- st330
    [⟨58, 58, .st 306⟩],
    [⟨46, 46, .st 230⟩, ⟨48, 57, .st 332⟩, ⟨58, 58, .st 306⟩,
     ⟨65, 70, .st 328⟩, ⟨97, 102, .st 328⟩],
    [⟨46, 46, .st 230⟩, ⟨48, 57, .st 333⟩, ⟨58, 58, .st 306⟩,
     ⟨65, 70, .st 329⟩, ⟨97, 102, .st 329⟩],
    [⟨46, 46, .st 230⟩, ⟨48, 57, .st 330⟩, ⟨58, 58, .st 306⟩,
     ⟨65, 70, .st 330⟩, ⟨97, 102, .st 330⟩],
    [⟨46, 46, .st 230⟩, ⟨48, 48, .st 335⟩, ⟨49, 52, .st 328⟩,
     ⟨53, 53, .st 336⟩, ⟨54, 57, .st 328⟩, ⟨58, 58, .st 306⟩,
     ⟨65, 70, .st 328⟩, ⟨97, 102, .st 328⟩],
    [⟨48, 57, .st 333⟩, ⟨58, 58, .st 306⟩, ⟨65, 70, .st 329⟩,
     ⟨97, 102, .st 329⟩],
    [⟨48, 48, .st 333⟩, ⟨49, 57, .st 329⟩, ⟨58, 58, .st 306⟩,
     ⟨65, 70, .st 329⟩, ⟨97, 102, .st 329⟩],
    [⟨48, 57, .st 328⟩, ⟨58, 58, .st 306⟩, ⟨65, 70, .st 328⟩,
     ⟨97, 102, .st 328⟩],
    [⟨2, 3, .st 223⟩, ⟨48, 57, .st 224⟩, ⟨65, 70, .st 224⟩,
     ⟨97, 102, .st 224⟩],
    [⟨2, 3, .st 223⟩],
    -- st340
    [⟨3, 3, .st 223⟩],
    [⟨4, 4, .st 223⟩],
    [⟨58, 58, .st 343⟩],
    [⟨2, 5, .st 223⟩, ⟨48, 48, .st 302⟩, ⟨49, 49, .st 318⟩,
     ⟨50, 50, .st 321⟩, ⟨51, 57, .st 302⟩, ⟨65, 70, .st 324⟩,
     ⟨93, 93, .st 236⟩, ⟨97, 102, .st 324⟩],
    [⟨48, 57, .st 345⟩, ⟨65, 70, .st 345⟩, ⟨97, 102, .st 345⟩],
    [⟨46, 46, .st 346⟩, ⟨48, 57, .st 345⟩, ⟨65, 70, .st 345⟩,
     ⟨97, 102, .st 345⟩],
    [⟨33, 33, .st 347⟩, ⟨36, 36, .st 347⟩, ⟨38, 46, .st 347⟩,
     ⟨48, 59, .st 347⟩, ⟨61, 61, .st 347⟩, ⟨65, 90, .st 347⟩,
     ⟨94, 95, .st 347⟩, ⟨97, 123, .st 347⟩, ⟨125, 126, .st 347⟩],
    [⟨33, 33, .st 347⟩, ⟨36, 36, .st 347⟩, ⟨38, 46, .st 347⟩,
     ⟨48, 59, .st 347⟩, ⟨61, 61, .st 347⟩, ⟨65, 90, .st 347⟩,
     ⟨93, 93, .st 236⟩, ⟨94, 95, .st 347⟩, ⟨97, 123, .st 347⟩,
     ⟨125, 126, .st 347⟩],
    [⟨1, 8, .st 14⟩, ⟨10, 31, .st 14⟩, ⟨33, 33, .st 14⟩, ⟨35, 39, .st 14⟩,
     ⟨42, 43, .st 14⟩, ⟨45, 46, .st 14⟩, ⟨48, 57, .st 14⟩,
     ⟨58, 58, .tr 27⟩, ⟨65, 90, .st 14⟩, ⟨94, 122, .st 14⟩,
     ⟨124, 124, .st 14⟩, ⟨126, 126, .st 14⟩],
    []]

/-- The byte is accepted in this state only by a relaxed parser. -/
def relaxedOnly (cs : Nat) (b : UInt8) : Bool :=
  (b = 94 || b = 123 || b = 125) && relaxedStates.contains cs

def resolve : Label → Option (List HttpAction × Nat)
  | .st n => some ([], n)
  | .tr n => (actions.find? fun a => a.1 = n).map Prod.snd

/-- The jump of state `cs` on the byte `b`: the actions and the next
state; `none` to the error state. -/
def transition (relaxed : Bool) (cs : Nat) (b : UInt8) :
    Option (List HttpAction × Nat) :=
  if relaxedOnly cs b && !relaxed then none
  else (tableLookup rows cs b.toNat).bind resolve

end RequestTable

end TinyServer.Http
