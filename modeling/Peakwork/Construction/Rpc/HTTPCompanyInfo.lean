/-
This file gives the choice of the request for the information on a company.
-/

import Peakwork.Construction.Rpc.IEXClient

namespace Peakwork.Rpc.RPCService

open CommonData CommonUtils

/-- `RPCService::GetHTTPCompanyInfo` on its client. -/
def getHTTPCompanyInfo (libraries : Libraries) (iexClient : IEXClient) (shortName timeFrame date : String) :
    Except Thrown CompanyInfo :=
  if timeFrame.isEmpty && date.isEmpty then iexClient.getCompanyInfo libraries shortName
  else if date.isEmpty then iexClient.getCompanyInfoFor libraries shortName timeFrame
  else iexClient.getCompanyInfoAt libraries shortName timeFrame date

end Peakwork.Rpc.RPCService
