import ProgramGym.Catalog

/-! The catalog that comes with the library: small tasks in both languages, easy ones first. -/
namespace ProgramGym.Catalog

def small (id language source expectedOutput description : String) : Task :=
  { id, language, source, expectedOutput, description := some description }

def bundled : Catalog where
  vocabularies :=
    [("echo", ["4", "2", "h", "i", "a", "b", " ", "!", "END"]),
     ("calc", ["1", "2", "3", "4", "5", "+", "-", "*", "/", "(", ")", "END"])]
  tasks :=
    [small "001" "echo" "42" "42" "Print the number 42",
     small "002" "echo" "hi" "hi" "Print a greeting",
     small "003" "echo" "hi!" "hi!" "Print an excited greeting",
     small "004" "echo" "ab ba" "ab ba" "Print two words",
     small "001" "calc" "1+2" "3" "Add two digits",
     small "002" "calc" "2*3" "6" "Multiply two digits",
     small "003" "calc" "2-3" "-1" "Produce a negative number",
     small "004" "calc" "3*2+1" "7" "Mix precedence levels",
     small "005" "calc" "(2+3)*2" "10" "Use parentheses"]

end ProgramGym.Catalog
