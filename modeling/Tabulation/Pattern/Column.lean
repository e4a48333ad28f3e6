/-! Matching by columns. The column of a pattern says for every rest of a text, from the whole text
down to the empty one, whether the pattern followed by some continuation matches all of it. -/
namespace Tabulation.Pattern

abbrev Column := List Bool

namespace Column

/-- One accepted character before what the column stands for. -/
def one (accepts : Char → Bool) : List Char → Column → Column
  | c :: s, _ :: b :: bs => (accepts c && b) :: one accepts s (b :: bs)
  | _, _ => [false]

/-- Any number of accepted characters before what the column stands for. -/
def run (accepts : Char → Bool) : List Char → Column → Column
  | c :: s, b :: bs =>
    let rest := run accepts s bs
    (b || (accepts c && rest.headD false)) :: rest
  | _, column => column

/-- A condition on the characters to the left and to the right of a place. -/
def between (holds : Option Char → Option Char → Bool) (left : Option Char) :
    List Char → Column
  | [] => [holds left none]
  | c :: s => holds left (some c) :: between holds (some c) s

def both : Column → Column → Column := List.zipWith (· && ·)

def either : Column → Column → Column := List.zipWith (· || ·)

end Column

end Tabulation.Pattern
