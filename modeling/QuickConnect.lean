import QuickConnect.Firmware.Steps
import QuickConnect.Firmware.Tokens
import QuickConnect.Firmware.Population
import QuickConnect.Firmware.TlsHandle
import QuickConnect.Firmware.Restart
import QuickConnect.Firmware.ClaimData
import QuickConnect.Firmware.Credentials
import QuickConnect.Firmware.Identity
import QuickConnect.Firmware.SerialReport
import QuickConnect.Firmware.Recovery
import QuickConnect.Lib.Trace
import QuickConnect.Nvs
import QuickConnect.Claim.Data
import QuickConnect.Claim.Exchange
import QuickConnect.Claim.NewLine
import QuickConnect.Json.Jsmn
import QuickConnect.Json.StringBody
import QuickConnect.Json.JsonParser
import QuickConnect.Json.Accepted
import QuickConnect.Json.FlatObject
import QuickConnect.Json.Lookup
import QuickConnect.Claim.VerifyResponse
import QuickConnect.Claim.Extraction
import QuickConnect.Json.JsonGenerator
import QuickConnect.Claim.InitResponse
import QuickConnect.Claim.Required
import QuickConnect.Claim.Released
import QuickConnect.Claim.Begin
import QuickConnect.Claim.Answered
import QuickConnect.Claim.Perform
import QuickConnect.Firmware.Names
import QuickConnect.Json.Streaming
import QuickConnect.Json.Numbers
import QuickConnect.Json.Cursor
import QuickConnect.Json.Truncated
import QuickConnect.Json.Written
import QuickConnect.Claim.Granted
import QuickConnect.Firmware.Assembly
import QuickConnect.Firmware.SerialText
import QuickConnect.Firmware.SerialProtocol
import QuickConnect.Firmware.Told
import QuickConnect.Firmware.Board
import QuickConnect.Firmware.Message
