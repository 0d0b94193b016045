/-!
# The grammar of lexemes

What the calculator prints as its grammar: one regular expression with a named group for each class
of lexemes.
-/

namespace DeskCalculator

/-- The lines of the grammar. -/
def grammarLines : List String :=
  ["(?<number>",
   "              (?:",
   "                  # 1, 12, 12. (notice trailing dot), 1.3",
   "                  \\d+",
   "                  (?:",
   "                      \\.",
   "                      \\d*",
   "                  )?",
   "              )|(?:",
   "                  # .2, read as 0.2. A lone . is not a number.",
   "                  \\.",
   "                  \\d+",
   "              )",
   "              )|(?<identifier>\\p\x7bL\x7d+)|(?<operator>[-+*/%])" ++
     "|(?<punctuation>[(),])|(?<space>\\s+)"]

end DeskCalculator
