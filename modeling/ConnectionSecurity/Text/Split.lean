/-!
# Cutting lists into parts

The parts between separators: one more than there are separators, and empty where two of them meet.
-/

namespace ConnectionSecurity.Text

/-- Split a list at every member that satisfies `p`; the parts are one more than the cuts. -/
def splitOnP (p : α → Bool) : List α → List (List α)
  | [] => [[]]
  | c :: cs =>
    if p c then [] :: splitOnP p cs
    else
      match splitOnP p cs with
      | [] => [[c]]
      | w :: ws => (c :: w) :: ws

end ConnectionSecurity.Text
