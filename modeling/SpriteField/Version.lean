/-!
# Version
-/

namespace SpriteField

def version : String := "0.1.0"

end SpriteField
